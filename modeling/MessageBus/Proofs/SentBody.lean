import MessageBus.Proofs.Canonical
import MessageBus.Proofs.SendCommand

/-!
# What a send command hands over

A send command that succeeds hands one wire form over, and every reader of it finds the very value that the text of the
command spells (`sends_what_it_reads`). On the way the value is validated, wrapped in a message, written and checked.
Validation leaves a value that was read as it is or refuses it (`Json.kept_of_read`); so the message that is written is
known in all its fields (`handedOver`), and a valid message is read from its wire form as it was written.
-/

namespace MessageBus

open Value

/-! ## Values that validation leaves as they are -/

namespace Check

/-- Validation refuses the value, or lets it through as it is. -/
def Kept (v : Value) : Prop := ∀ levels x, json levels v = .ok x → x = v

theorem kept_float (x : Double) : Kept (.float x) := by
  intro levels y h
  rw [json] at h
  split at h
  · exact (Except.ok.inj h).symm
  · cases h

theorem kept_list {items : List Value} (h : ∀ v ∈ items, Kept v) : Kept (.list items) := by
  have hitems (levels i : Nat) (xs : List Value) (hxs : jsonItems levels i items = .ok xs) : xs = items := by
    induction items generalizing i xs with
    | nil =>
      cases levels <;> exact (Except.ok.inj hxs).symm
    | cons v vs ih =>
      rw [List.forall_mem_cons] at h
      cases levels with
      | zero =>
        obtain ⟨_, _, hdeep, -⟩ := Checked.both_eq_ok.mp hxs
        cases hdeep
      | succ levels =>
        obtain ⟨x, rest, hx, hrest, rfl⟩ := Checked.both_eq_ok.mp hxs
        rw [h.1 levels x (Checked.under_eq_ok.mp hx), ih h.2 _ rest hrest]
  intro levels x hx
  rw [json] at hx
  obtain ⟨xs, hxs, rfl⟩ := map_eq_ok.mp (Checked.under_eq_ok.mp hx)
  rw [hitems levels 0 xs hxs]

theorem kept_ofFields {fields : List (Text × Value)} (hkeys : (fields.map (·.1)).Nodup) (h : ∀ e ∈ fields, Kept e.2) :
    Kept (ofFields fields) := by
  have hentries (levels : Nat) (xs : List (Text × Value))
      (hxs : jsonEntries levels (fields.map fun e => (.text e.1, e.2)) = .ok xs) : xs = fields := by
    clear hkeys
    induction fields generalizing xs with
    | nil =>
      cases levels <;> exact (Except.ok.inj hxs).symm
    | cons e es ih =>
      rw [List.forall_mem_cons] at h
      cases levels with
      | zero =>
        obtain ⟨_, _, hentry, -⟩ := Checked.both_eq_ok.mp hxs
        obtain ⟨_, _, -, hdeep, -⟩ := Checked.both_eq_ok.mp hentry
        cases hdeep
      | succ levels =>
        obtain ⟨_, rest, hentry, hrest, rfl⟩ := Checked.both_eq_ok.mp hxs
        obtain ⟨k, x, hk, hx, rfl⟩ := Checked.both_eq_ok.mp hentry
        have hkey : e.1 = k := Except.ok.inj (Checked.under_eq_ok.mp hk)
        rw [ih h.2 rest hrest, h.1 levels x (Checked.under_eq_ok.mp hx), ← hkey]
  intro levels x hx
  rw [ofFields, json] at hx
  obtain ⟨xs, hxs, rfl⟩ := map_eq_ok.mp (Checked.under_eq_ok.mp hx)
  rw [hentries levels xs hxs, ofEntries_of_nodup hkeys]

end Check

namespace Json

variable {limits : Limits} {inside : Reader Value}

theorem readNumber_kept : Yields Check.Kept (readNumber limits) := by
  intro t x hread
  cases numberAt t with
  | nothing h =>
    rw [h limits] at hread
    cases hread
  | int n digits left _ _ _ _ _ h =>
    rw [h limits] at hread
    split at hread
    · cases hread
    · cases hread
      exact fun _ _ hx => (Except.ok.inj hx).symm
  | float y left _ h =>
    rw [h limits] at hread
    cases hread
    exact Check.kept_float y

theorem readScalar_kept : Yields Check.Kept (readScalar limits) := by
  intro t x hread
  unfold readScalar at hread
  split at hread
  case h_7 => exact readNumber_kept hread
  all_goals cases hread
  case h_1 | h_2 | h_3 => exact fun _ _ hx => (Except.ok.inj hx).symm
  all_goals exact Check.kept_float _

theorem readLayer_kept (h : Yields Check.Kept inside) : Yields Check.Kept (readLayer limits inside) := by
  intro t x hread
  unfold readLayer at hread
  split at hread
  · obtain ⟨⟨u, left⟩, -, hread⟩ := bind_eq_ok.mp hread
    cases hread
    exact fun _ _ hx => (Except.ok.inj hx).symm
  · split at hread
    · cases hread
      exact Check.kept_list nofun
    · obtain ⟨⟨items, left⟩, hitems, hread⟩ := bind_eq_ok.mp hread
      cases hread
      exact Check.kept_list (readItems_forall h hitems)
  · split at hread
    · cases hread
      have hnone : (([] : List (Text × Value)).map (·.1)).Nodup := .nil
      exact Check.kept_ofFields hnone nofun
    · obtain ⟨⟨entries, left⟩, hentries, hread⟩ := bind_eq_ok.mp hread
      cases hread
      -- of several entries under one key one is left, so that no key occurs twice
      obtain ⟨fields, hfields, hkeys, hall⟩ :=
        exists_ofFields (p := fun e => Check.Kept e.2) (readEntries_forall h hentries)
      dsimp only
      rw [hfields]
      exact Check.kept_ofFields hkeys hall
  · exact readScalar_kept hread

theorem readValue_kept (limits : Limits) (levels : Nat) : Yields Check.Kept (readValue limits levels) := by
  induction levels with
  | zero => exact readLayer_kept fun _ _ hread => nomatch hread
  | succ levels ih => exact readLayer_kept ih

/-- Validation leaves a value that was read as it is, or refuses it. -/
theorem kept_of_read {t : Text} {v : Value} (h : readUnmarked limits t = .ok v) : Check.Kept v := by
  unfold readUnmarked at h
  split at h
  · cases h
  · exact read_forall (readValue_kept limits limits.depth) h

end Json

/-! ## The message that is handed over -/

namespace Command

/-- The message that a command makes of a body. -/
def wrapping (body : Value) (disableId : Bool) : Message (Option Destination) :=
  { Action.bodied body with disableMessageId := .bool disableId }

/-- The properties of a message that is sent with or without an ID, if it has no others. -/
def idNote (disableId : Bool) : Value :=
  .dict (if disableId then [(.text idDisabledKey, .bool true)] else [])

/-- The message that a command makes of a body as it is written, at some time and with the ID that it has by then. -/
def handedOver (body : Value) (disableId : Bool) (now : Int) (id : Value) : Message (Option Destination) :=
  { wrapping body disableId with properties := idNote disableId, messageId := id, timestamp := .int now }

variable {body id : Value} {disableId : Bool}

theorem outgoing_eq_ok {m : Message (Option Destination)} (hbody : Check.Kept body)
    (h : outgoing body disableId = .ok m) :
    m = wrapping body disableId ∧ body.IsJson ∧ body.depth ≤ Check.nestingLimit := by
  obtain ⟨entries, hentries, hreads, hnone⟩ := Message.check_eq_ok.mp h
  obtain rfl := Value.dict.inj hentries
  have hkept : m.body = body := hbody _ _ hreads.body
  have hjson := Check.isJson_of_json hreads.body
  rw [hkept] at hjson
  refine ⟨?_, hjson⟩
  obtain ⟨_, hkind⟩ := Check.literal_eq_ok hreads.kind
  obtain ⟨kind, _, properties, messageId, timestamp, disableMessageId, disableTimestamp, correlationId, messageType,
    destination, diagnosis⟩ := m
  cases hkept
  cases hkind
  cases hnone
  cases hreads.properties
  cases hreads.messageId
  cases hreads.timestamp
  cases hreads.disableMessageId
  cases hreads.disableTimestamp
  cases hreads.correlationId
  cases hreads.messageType
  cases hreads.destination
  rfl

theorem stamped_wrapping (body : Value) (disableId : Bool) (now : Int) :
    ((wrapping body disableId).mapDestination fun _ => Value.null).stamped now =
      .ok ((handedOver body disableId now .null).mapDestination fun _ => .null) := by
  cases disableId <;> rfl

theorem identified_handedOver (body : Value) (disableId : Bool) (now : Int) (id : Text) :
    ((handedOver body disableId now .null).mapDestination fun _ => Value.null).identified id =
      (handedOver body disableId now (if disableId then .null else .text ("ID:" ++ id))).mapDestination
        fun _ => .null := by
  cases disableId <;> rfl

theorem valid_handedOver (hjson : body.IsJson) (hdepth : body.depth ≤ Check.nestingLimit)
    (hid : id = .null ∨ ∃ t, id = .text t) (disableId : Bool) (now : Int) :
    (handedOver body disableId now id).Valid "message" where
  kind := rfl
  body := ⟨hjson, hdepth⟩
  properties := by
    cases disableId with
    | false => exact ⟨[], rfl, .nil, nofun⟩
    | true =>
      refine ⟨[(idDisabledKey, .bool true)], rfl, List.nodup_singleton _, ?_⟩
      rw [List.forall_mem_singleton]
      exact ⟨.bool true, Nat.zero_le _⟩
  messageId := hid
  timestamp := .inr ⟨now, rfl⟩
  disableMessageId := ⟨disableId, rfl⟩
  disableTimestamp := ⟨false, rfl⟩
  correlationId := .inl rfl
  messageType := .inl rfl
  destination := nofun

/-- Whatever is in the store, the wire form of such a message is read as the message. -/
theorem deserialize_handedOver {now : Int} {wire : Text} {s : Store} (hjson : body.IsJson)
    (hdepth : body.depth ≤ Check.nestingLimit) (hid : id = .null ∨ ∃ t, id = .text t)
    (hwire : Codec.serialize (((handedOver body disableId now id).mapDestination fun _ => .null).map s.expanded) =
      .ok wire) : Codec.deserialize (.text wire) = .ok (handedOver body disableId now id) := by
  have hvalid := valid_handedOver hjson hdepth hid disableId now
  rw [Store.map_expanded (hvalid.sound rfl), Store.expanded_of_bare Value.bare_null] at hwire
  exact Codec.deserialize_told hvalid rfl hwire

/-! ## A command that comes to its end -/

section inversion

variable {σ α β : Type}

theorem run_bind_eq_ok {x : Command σ α} {f : α → Command σ β} {b : β} {w u : World σ} :
    EStateM.run (x >>= f) w = .ok b u ↔ ∃ a v, EStateM.run x w = .ok a v ∧ EStateM.run (f a) v = .ok b u := by
  rw [EStateM.run_bind]
  cases EStateM.run x w <;> simp

theorem run_act_eq_ok {x : Action σ α} {a : α} {w v : World σ} :
    EStateM.run (act x) w = .ok a v ↔ x.run w = .ok a v := by
  rw [run_act]
  cases x.run w <;> simp

theorem run_print_eq_ok {line : Text} {w v : World σ} (h : EStateM.run (print line) w = .ok () v) :
    v = w.record (.out line.withoutControls) := by
  cases hline : line.withoutControls.unencodable? with
  | none =>
    rw [run_print w hline] at h
    cases h
    rfl
  | some u =>
    rw [run_print_error w hline] at h
    cases h

theorem run_jsonOf_eq_ok {t : Text} {body : Value} {w v : World σ} (h : EStateM.run (jsonOf t) w = .ok body v) :
    Json.readUnmarked .payload t = .ok body ∧ v = w := by
  unfold jsonOf at h
  cases hread : Json.readUnmarked .payload t with
  | ok x =>
    rw [hread] at h
    cases h
    exact ⟨rfl, rfl⟩
  | error e =>
    rw [hread] at h
    cases e <;> cases h

theorem run_words_eq_ok {t : Except Fault Text} {line : Text} {w v : World σ}
    (h : EStateM.run (words t) w = .ok line v) : t = .ok line ∧ v = w := by
  cases t with
  | ok t =>
    cases h
    exact ⟨rfl, rfl⟩
  | error f => cases (run_words_error w rfl).symm.trans h

theorem run_settings_eq_ok {s : Surroundings} {a : Arguments} {settings : Settings} {w v : World σ}
    (h : EStateM.run (Command.settings s a) w = .ok settings v) : s.loadedBy a = .ok settings ∧ v = w := by
  cases hloaded : s.loadedBy a with
  | ok loaded =>
    cases (run_settings w hloaded).symm.trans h
    exact ⟨rfl, rfl⟩
  | error fault => cases (run_settings_error w hloaded).symm.trans h

/-- A command ends with exit code 0 only if its body comes to its end. -/
theorem run_eq_success {name : Text} {specs : List OptionSpec} {body : Arguments → Command σ Unit} {args : List Text}
    {w v : World σ} {e : Ending} (h : run name specs body args w = (e, v)) (hcode : e.code = 0)
    (hhelp : ∀ a, Arguments.check (specs ++ commonSpecs) args = .ok a → a.flag "--help" = false) :
    ∃ a, Arguments.check (specs ++ commonSpecs) args = .ok a ∧ EStateM.run (body a) w = .ok () v := by
  cases hcheck : Arguments.check (specs ++ commonSpecs) args with
  | error usage =>
    rw [run, hcheck] at h
    cases h
    cases hcode
  | ok a =>
    refine ⟨a, rfl, ?_⟩
    rw [run_of_checked w hcheck (hhelp a hcheck)] at h
    cases hbody : EStateM.run (body a) w with
    | ok _ u =>
      rw [hbody] at h
      cases h
      rfl
    | error abort u =>
      rw [hbody] at h
      cases abort <;> cases h <;> cases hcode

end inversion

variable {σ : Type} [Service σ]

/-- A send command that comes to its end has a text with a value for a destination, and goes on with both. -/
theorem run_sendBody_eq_ok {s : Surroundings} {a : Arguments} {w v : World σ}
    (h : EStateM.run (sendBody s a) w = .ok () v) :
    ∃ destination t body u,
      destinationOf ((a.text? "--queue-name").getD []) ((a.text? "--topic-name").getD []) = some destination ∧
      a.text? "--message" = some t ∧ Json.readUnmarked .payload t = .ok body ∧ Quiet w u ∧
      EStateM.run (sendDecoded t body (a.flag "--disable-message-id") destination) u = .ok () v := by
  rw [sendBody] at h
  cases hd : destinationOf ((a.text? "--queue-name").getD []) ((a.text? "--topic-name").getD []) with
  | none =>
    rw [hd] at h
    cases h
  | some destination =>
    rw [hd] at h
    obtain ⟨body, w₁, hjson, h₁⟩ := run_bind_eq_ok.mp h
    obtain ⟨label, w₂, hwords, h₂⟩ := run_bind_eq_ok.mp h₁
    obtain ⟨_, w₃, hprint, h₃⟩ := run_bind_eq_ok.mp h₂
    obtain ⟨settings, w₄, hsettings, h₄⟩ := run_bind_eq_ok.mp h₃
    obtain ⟨c, u, hconnector, h₅⟩ := run_bind_eq_ok.mp h₄
    obtain ⟨hread, rfl⟩ := run_jsonOf_eq_ok hjson
    obtain ⟨-, rfl⟩ := run_words_eq_ok hwords
    obtain rfl := run_print_eq_ok hprint
    obtain ⟨-, rfl⟩ := run_settings_eq_ok hsettings
    obtain ⟨_, _, hrun, hquiet⟩ := run_connector settings
      (w₂.record (.out ("destination: " ++ label : Text).withoutControls))
    cases hrun.symm.trans hconnector
    have hall := (Quiet.out w₂ _).trans hquiet
    cases ht : a.text? "--message" with
    | none =>
      -- without a text there is nothing to decode
      rw [ht] at hread
      cases hread
    | some t =>
      rw [ht] at hread h₅
      exact ⟨destination, t, body, u, rfl, rfl, hread, hall, h₅⟩

/-- The ID that a send command tells: none if the message wants none, else the one that the queue answered or the one
that is in the published message. -/
def toldId (destination : Destination) (disableId : Bool) (answer : Value) (got : Message (Option Destination)) :
    Except Fault Text :=
  if disableId then .ok "None"
  else
    match destination with
    | .queue _ => (answer.item "MessageId").map fun id => "ID:" ++ id.shown
    | .topic _ => .ok got.messageId.shown

/-- What becomes of a body in a send command: one call hands a wire form over and is answered, every reader finds the
body in it, and the line that ends the command tells the ID. -/
structure Conveyed (destination : Destination) (body : Value) (disableId : Bool) (cs : List Call) (v : World σ)
    (wire : Text) (answer : Value) (got : Message (Option Destination)) : Prop where
  handed : ∃ handle, cs.filter Call.carries = [⟨destination.object.carriage handle wire, .ok answer⟩]
  read : Codec.deserialize (.text wire) = .ok got
  body : got.body = body
  properties : got.properties = idNote disableId
  disableMessageId : got.disableMessageId = .bool disableId
  told : ∃ (id : Text) (u : World σ), toldId destination disableId answer got = .ok id ∧
    v = u.record (.out ("Message sent with ID: " ++ id : Text).withoutControls)

omit [Service σ] in
theorem conveyed_of_delivers {destination : Destination} {ref : Ref} {now : Int} {u v : World σ} {lookups : List Call}
    {handle answer : Value} {wire : Text} {sent : Message Value} (hjson : body.IsJson)
    (hdepth : body.depth ≤ Check.nestingLimit)
    (h : Action.Delivers destination.object ref ((handedOver body disableId now .null).mapDestination fun _ => .null)
      u lookups handle wire answer sent v) :
    ∃ got, Conveyed destination body disableId (lookups ++ [⟨destination.object.carriage handle wire, .ok answer⟩])
      (v.record (.out ("Message sent with ID: " ++ sent.messageId.shown : Text).withoutControls)) wire answer got := by
  cases destination with
  | queue q =>
    -- the queue gives the message its ID after it was written
    obtain ⟨hwire, -, id, hid, hsent⟩ := h.queue q rfl
    rw [identified_handedOver] at hsent
    refine ⟨handedOver body disableId now .null, ⟨_, h.filter_carries⟩,
      deserialize_handedOver hjson hdepth (.inl rfl) hwire, rfl, rfl, rfl, _, v, ?_, rfl⟩
    rw [toldId, hid, hsent]
    cases disableId <;> rfl
  | topic t =>
    obtain ⟨hwire, hsent, -⟩ := h.topic t rfl
    rw [identified_handedOver] at hsent
    rw [hsent] at hwire
    refine ⟨_, ⟨_, h.filter_carries⟩, deserialize_handedOver hjson hdepth ?_ hwire, rfl, rfl, rfl, _, v, ?_, rfl⟩
    · cases disableId with
      | true => exact .inl rfl
      | false => exact .inr ⟨_, rfl⟩
    · rw [toldId, hsent]
      cases disableId <;> rfl

/-- A send command that succeeds, and was not asked for help, conveys the value that its text spells. -/
theorem sends_what_it_reads {s : Surroundings} {args : List Text} {w v : World σ} {e : Ending}
    (h : send s args w = (e, v)) (hcode : e.code = 0)
    (hhelp : ∀ a, Arguments.check (sendSpecs ++ commonSpecs) args = .ok a → a.flag "--help" = false) :
    ∃ a t body destination wire answer got, Arguments.check (sendSpecs ++ commonSpecs) args = .ok a ∧
      a.text? "--message" = some t ∧ Json.readUnmarked .payload t = .ok body ∧
      destinationOf ((a.text? "--queue-name").getD []) ((a.text? "--topic-name").getD []) = some destination ∧
      Conveyed destination body (a.flag "--disable-message-id") (madeBy w (e, v)) v wire answer got := by
  obtain ⟨a, hcheck, hbody⟩ := run_eq_success h hcode hhelp
  obtain ⟨destination, t, body, u, hd, ht, hread, hquiet, hrun⟩ := run_sendBody_eq_ok hbody
  cases hm : outgoing body (a.flag "--disable-message-id") with
  | error issues =>
    rw [run_sendDecoded_refused destination u hm] at hrun
    cases hrun
  | ok m =>
    obtain ⟨target, ref, x, hdecoded, hmakes, htarget, hobject⟩ := run_sendDecoded (t := t) destination u hm
    obtain ⟨rfl, hjson, hdepth⟩ := outgoing_eq_ok (Json.kept_of_read hread) hm
    rw [hdecoded, sendAndConfirm] at hrun
    obtain ⟨_, y, hsend, h₁⟩ := run_bind_eq_ok.mp hrun
    obtain ⟨⟨_, sent⟩, _, hmessage, h₂⟩ := run_bind_eq_ok.mp h₁
    obtain ⟨id, z, hwords, hprint⟩ := run_bind_eq_ok.mp h₂
    obtain ⟨d, o, _, ref', m', stamped, lookups, handle, wire, answer, sent', hd', ho, -, hx, hm', hs, hdelivers⟩ :=
      Action.delivers_of_send (run_act_eq_ok.mp hsend)
    cases hd'
    cases hx
    obtain rfl := Option.some.inj (ho.symm.trans htarget)
    obtain rfl := Object.message.inj (Option.some.inj (hm'.symm.trans hobject))
    obtain rfl := Except.ok.inj (hs.symm.trans (stamped_wrapping body _ x.wallClock))
    cases (Action.run_message hdelivers.message).symm.trans (run_act_eq_ok.mp hmessage)
    obtain ⟨hid, rfl⟩ := run_words_eq_ok hwords
    obtain rfl := Value.inWords_eq_ok hid
    obtain rfl := run_print_eq_ok hprint
    obtain ⟨got, hconveyed⟩ := conveyed_of_delivers hjson hdepth hdelivers
    have hprinted := (Quiet.out z ("Message sent with ID: " ++ sent.messageId.shown : Text).withoutControls).makes
    have hmade := ((hquiet.makes.trans hmakes).trans hdelivers.makes).before hprinted
    refine ⟨a, t, body, destination, wire, answer, got, hcheck, ht, hread, hd, ?_⟩
    rw [madeBy_eq hmade]
    exact hconveyed

/-- The arguments that send a dictionary with two entries under one key to a queue. -/
def twoEntries : List Text := naming "orders" "\x7b\"a\":1.0,\"a\":1\x7d"

/-- Of the two entries the second one is sent, with the integer that it is. -/
theorem second_entry_sent :
    ∃ body wire answer got, Value.shown body = "\x7b'a': 1\x7d" ∧
      Conveyed (.queue (Queue.named "orders")) body false
        (madeBy untouched (send ⟨[], none, none⟩ twoEntries untouched))
        (send ⟨[], none, none⟩ twoEntries untouched).2 wire answer got := by
  have hcheck : Arguments.check (sendSpecs ++ commonSpecs) twoEntries =
      .ok ⟨[("--queue-name", some "orders"), ("--message", some "\x7b\"a\":1.0,\"a\":1\x7d")], []⟩ := check_naming _ _
  have hcode : (send ⟨[], none, none⟩ twoEntries untouched).1.code = 0 := by decide +kernel
  have hshown : (Json.readUnmarked .payload "\x7b\"a\":1.0,\"a\":1\x7d").toOption.map Value.shown =
      some "\x7b'a': 1\x7d" := by
    decide +kernel
  cases hrun : send ⟨[], none, none⟩ twoEntries untouched with
  | mk e v =>
    rw [hrun] at hcode
    obtain ⟨a, t, body, destination, wire, answer, got, hchecked, ht, hread, hd, hconveyed⟩ :=
      sends_what_it_reads hrun hcode fun a h => by
        obtain rfl := Except.ok.inj (hcheck.symm.trans h)
        rfl
    obtain rfl := Except.ok.inj (hcheck.symm.trans hchecked)
    have htext : some ("\x7b\"a\":1.0,\"a\":1\x7d" : Text) = some t := ht
    have hqueue : some (Destination.queue (Queue.named "orders")) = some destination := hd
    obtain rfl := Option.some.inj htext
    obtain rfl := Option.some.inj hqueue
    rw [hread] at hshown
    exact ⟨body, wire, answer, got, Option.some.inj hshown, hconveyed⟩

end Command

end MessageBus
