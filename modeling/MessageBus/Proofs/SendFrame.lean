import MessageBus.Proofs.Operations
import MessageBus.Script

/-!
# What a send leaves behind

A send may end at any of its stages, and each end leaves another half of its work: the stamp on the message,
the handle of the destination, the ID. What it leaves alone is the same at every end (`Framed`). The handing over
that follows the stamp is put together from its steps (`Hands`): a lookup may bind the destination, a topic that
was found or a queue that took the message may give an ID, and nothing else changes an object.
-/

namespace MessageBus

namespace Message

theorem wants_of_identified {m : Message Value} {id : Text} (h : (m.identified id).messageId ≠ m.messageId) :
    m.disableMessageId.truthy = false ∧ (m.identified id).messageId = .text ("ID:" ++ id) := by
  rw [messageId_identified] at h ⊢
  split
  · next hdisabled =>
    rw [if_pos hdisabled] at h
    exact absurd rfl h
  · next hdisabled => exact ⟨Bool.eq_false_iff.mpr hdisabled, rfl⟩

theorem mem_notedEntries (m : Message Value) {entries : List (Value × Value)} {e : Value × Value}
    (he : e.1 ≠ .text idDisabledKey) : e ∈ m.notedEntries entries ↔ e ∈ entries := by
  unfold notedEntries
  split
  · exact Value.mem_store_other _ he
  · rfl

end Message

/-- An object is what it was, or is bound to the handle that one of the calls was answered with. -/
inductive Object.Bound (cs : List Call) (o : Object) : Object → Prop where
  | kept : Bound cs o o
  | given {q : Request} {key : Text} {answer h : Value} (hnull : o.handle? = some .null)
      (hkey : q.handleKey? = some key) (hc : ⟨q, .ok answer⟩ ∈ cs) (hh : answer.item key = .ok h) :
      Bound cs o (o.withHandle h)

/-- An object has a handle, or one of the calls was answered with one. -/
def Object.Found (cs : List Call) (o : Object) : Prop :=
  (∃ h, o.handle? = some h ∧ h.isNull = false) ∨
    ∃ q key answer h, q.handleKey? = some key ∧ ⟨q, .ok answer⟩ ∈ cs ∧ answer.item key = .ok h

/-- Where the ID of a sent message comes from: a queue answers with one when it takes the message, and what goes to
a topic gets an identifier once the topic is found. -/
inductive Object.Issues (next : Text) (cs : List Call) : Object → Value → Prop where
  | queue {q : Queue} {url answer id : Value} {wire : Text} (hc : ⟨.sendMessage url wire, .ok answer⟩ ∈ cs)
      (hid : answer.item "MessageId" = .ok id) : Issues next cs (.queue q) (.text ("ID:" ++ id.shown))
  | topic {t : Topic} (hfound : (Object.topic t).Found cs) : Issues next cs (.topic t) (.text ("ID:" ++ next))

namespace Object

variable {o o' : Object} {cs cs' : List Call} {next : Text} {id : Value}

theorem Bound.mono (h : o.Bound cs o') (hsub : cs ⊆ cs') : o.Bound cs' o' := by
  cases h with
  | kept => exact .kept
  | given hnull hkey hc hh => exact .given hnull hkey (hsub hc) hh

theorem Found.mono (h : o.Found cs) (hsub : cs ⊆ cs') : o.Found cs' :=
  h.imp_right fun ⟨q, key, answer, handle, hkey, hc, hh⟩ => ⟨q, key, answer, handle, hkey, hsub hc, hh⟩

theorem Issues.mono (h : o.Issues next cs id) (hsub : cs ⊆ cs') : o.Issues next cs' id := by
  cases h with
  | queue hc hid => exact .queue (hsub hc) hid
  | topic hfound => exact .topic (hfound.mono hsub)

end Object

namespace Action

variable {σ : Type}

/-- What the lookup of a destination leaves: at most a handle. -/
structure LooksUp (d : Ref) (o : Object) (w : World σ) (cs : List Call) (v : World σ) : Prop where
  makes : Makes w cs v
  lookups : ∀ c ∈ cs, c.request.IsLookup
  bound : ∃ o', v.store.object? d = some o' ∧ o.Bound cs o'
  others : ∀ other, d ≠ other → v.store.object? other = w.store.object? other
  serial : v.serial = w.serial

/-- What handing over a stamped message leaves: at most the handle of the destination, and an ID. -/
structure Hands (d : Ref) (o : Object) (ref : Ref) (m : Message Value) (w : World σ) (cs : List Call)
    (v : World σ) : Prop where
  makes : Makes w cs v
  bound : ∃ o', v.store.object? d = some o' ∧ o.Bound cs o'
  others : ∀ other, d ≠ other → ref ≠ other → v.store.object? other = w.store.object? other
  message : ∃ id, v.store.object? ref = some (.message { m with messageId := id }) ∧
    (id ≠ m.messageId → m.disableMessageId.truthy = false ∧ o.Issues w.nextIdentifier cs id)

section steps

variable {d ref : Ref} {o : Object} {m : Message Value} {w v u : World σ} {cs cs' : List Call}

theorem LooksUp.hands (h : LooksUp d o w cs v) (hm : w.store.object? ref = some (.message m)) (hother : d ≠ ref) :
    Hands d o ref m w cs v where
  makes := h.makes
  bound := h.bound
  others other hd _ := h.others other hd
  message := ⟨m.messageId, (h.others ref hother).trans hm, fun hne => absurd rfl hne⟩

theorem Hands.before (h : Hands d o ref m w cs v) (hmakes : Makes v cs' u) (hstore : u.store = v.store) :
    Hands d o ref m w (cs ++ cs') u := by
  have hsub : cs ⊆ cs ++ cs' := List.subset_append_left cs cs'
  obtain ⟨o', ho', hbound⟩ := h.bound
  obtain ⟨id, hid, hissues⟩ := h.message
  refine ⟨h.makes.trans hmakes, ⟨o', by rw [hstore, ho'], hbound.mono hsub⟩, ?_, id, by rw [hstore, hid], ?_⟩
  · intro other hd href
    rw [hstore, h.others other hd href]
  · intro hne
    obtain ⟨hwants, hissues⟩ := hissues hne
    exact ⟨hwants, hissues.mono hsub⟩

theorem Hands.identify {n : Text} (h : Hands d o ref m w cs v) (hother : d ≠ ref)
    (hissues : o.Issues w.nextIdentifier cs (.text ("ID:" ++ n))) (hmakes : Makes v [] u)
    (hstore : u.store = (v.put ref (.message (m.identified n))).store) : Hands d o ref m w cs u := by
  obtain ⟨o', ho', hbound⟩ := h.bound
  obtain ⟨id, hid, _⟩ := h.message
  refine ⟨h.makes.before hmakes, ⟨o', ?_, hbound⟩, ?_, (m.identified n).messageId, ?_, ?_⟩
  · rw [hstore, World.store_put, Store.object?_replace_other _ hother.symm, ho']
  · intro other hd href
    rw [hstore, World.store_put, Store.object?_replace_other _ href, h.others other hd href]
  · rw [hstore, World.store_put, Store.object?_replace_self hid, ← m.identified_eq n]
  · intro hne
    obtain ⟨hwants, heq⟩ := Message.wants_of_identified hne
    rw [heq]
    exact ⟨hwants, hissues⟩

theorem Hands.addressed {m' : Message Value} (h : Hands d o ref m w cs v) (hother : d ≠ ref)
    (hfound : o.Found cs) (hserial : v.serial = w.serial) (hu : addressed o ref m v = (m', u)) :
    Hands d o ref m w cs u := by
  unfold Action.addressed at hu
  split at hu
  · next t =>
    split at hu
    · cases hu
      exact h
    · cases hu
      refine h.identify hother ?_ (.of_trace rfl) rfl
      rw [World.nextIdentifier_congr hserial]
      exact .topic hfound
  · cases hu
    exact h

end steps

section ends

variable [Service σ] {d ref : Ref} {o : Object} {m : Message Value} {w : World σ}

theorem LookupEnds.looksUp {r : EStateM.Result Fault (World σ) Value} (h : LookupEnds d o w r)
    (ho : w.store.object? d = some o) :
    ∃ cs, LooksUp d o w cs (left r) ∧ ∀ handle v, r = .ok handle v → o.Found cs := by
  have hlookup {q : Request} {key : Text} {outcome : Except Failure Value} (hq : Unbound o w.store q key) :
      ∀ c ∈ [(⟨q, outcome⟩ : Call)], c.request.IsLookup := by
    intro c hc
    rw [List.mem_singleton.mp hc, Request.IsLookup, hq.key]
    rfl
  cases h with
  | known hh hbound =>
    exact ⟨[], ⟨.refl w, by simp, ⟨o, ho, .kept⟩, fun _ _ => rfl, rfl⟩, fun _ _ _ => .inl ⟨_, hh, hbound⟩⟩
  | @found q key line answer handle hq hanswer hh =>
    have hmakes := (Makes.after w q).trans (.put_note (w.after q) d (o.withHandle handle) .debug .resolver line)
    have hmem : (⟨q, .ok answer⟩ : Call) ∈ [⟨q, (w.reply q).outcome⟩] ++ [] := by simp [hanswer]
    refine ⟨_, ⟨hmakes, hlookup hq, ⟨_, Store.object?_replace_self ho, .given hq.handle hq.key hmem hh⟩, ?_, rfl⟩, ?_⟩
    · intro other hother
      exact Store.object?_replace_other _ hother
    · intro _ _ _
      exact .inr ⟨q, key, answer, handle, hq.key, hmem, hh⟩
  | @malformed q key answer f hq hanswer hh =>
    exact ⟨_, ⟨.after w q, hlookup hq, ⟨o, ho, .kept⟩, fun _ _ => rfl, rfl⟩, nofun⟩
  | @failed q key context f v hq hr =>
    have hkept : v.store = w.store := hr.store
    have hserial : v.serial = w.serial := by cases hr <;> rfl
    refine ⟨_, ⟨hr.makes, hlookup hq, ⟨o, by rw [left, hkept, ho], .kept⟩, ?_, hserial⟩, nofun⟩
    intro other _
    rw [left, hkept]

theorem HandingEnds.hands {r : EStateM.Result Fault (World σ) Unit} (h : HandingEnds d o ref m w r)
    (ho : w.store.object? d = some o) (hm : w.store.object? ref = some (.message m)) (hother : d ≠ ref) :
    ∃ cs, Hands d o ref m w cs (left r) := by
  -- what was found was handed over, as far as the message came
  have haddressed {handle : Value} {v u : World σ} {m' : Message Value} (hl : LookupEnds d o w (.ok handle v))
      (hu : addressed o ref m v = (m', u)) : ∃ cs, Hands d o ref m w cs u := by
    obtain ⟨cs, hlooks, hfound⟩ := hl.looksUp ho
    exact ⟨cs, (hlooks.hands hm hother).addressed hother (hfound handle v rfl) hlooks.serial hu⟩
  cases h with
  | unfound hl =>
    obtain ⟨cs, hlooks, _⟩ := hl.looksUp ho
    exact ⟨cs, hlooks.hands hm hother⟩
  | unwritten hl hu hwire =>
    obtain ⟨cs, hhands⟩ := haddressed hl hu
    exact ⟨_, hhands.before (.log ..) rfl⟩
  | refused hl hu hwire hr =>
    obtain ⟨cs, hhands⟩ := haddressed hl hu
    exact ⟨_, hhands.before hr.makes hr.store⟩
  | unnumbered hq hl hwire hanswer hid =>
    obtain ⟨cs, hlooks, _⟩ := hl.looksUp ho
    exact ⟨_, (hlooks.hands hm hother).before (.after _ _) rfl⟩
  | unnamed hq hl hwire hanswer hid hwords =>
    obtain ⟨cs, hlooks, _⟩ := hl.looksUp ho
    exact ⟨_, (hlooks.hands hm hother).before (.after _ _) rfl⟩
  | @posted q handle answer id v wire hq hl hwire hanswer hid htakes =>
    obtain ⟨cs, hlooks, _⟩ := hl.looksUp ho
    have htaken := (hlooks.hands hm hother).before (.after v (.sendMessage handle wire)) rfl
    refine ⟨_, htaken.identify hother ?_ (.put_note ..) rfl⟩
    subst hq
    exact .queue (List.mem_append_right _ (by rw [hanswer]; exact List.mem_cons_self)) hid
  | published ht hl hu hwire hanswer =>
    obtain ⟨cs, hhands⟩ := haddressed hl hu
    exact ⟨_, (hhands.before (.after _ _) rfl).before (.note ..) rfl⟩

end ends

end Action

/-- A message `m` with the bag of properties `entries` as a send at time `now` leaves it, its ID aside. -/
structure Message.KeptBut (m : Message Value) (entries : List (Value × Value)) (now : Int) (m' : Message Value) :
    Prop where
  rest : m' = { m with properties := m'.properties, timestamp := m'.timestamp, messageId := m'.messageId }
  properties : ∃ read, m'.properties = .dict read ∧ (∀ e, e.1 ≠ .text idDisabledKey → (e ∈ read ↔ e ∈ entries)) ∧
    if m.disableMessageId.truthy then Value.lookup idDisabledKey read = some (.bool true) else read = entries
  timestamp : m'.timestamp = if m.disableTimestamp.truthy then m.timestamp else .int now

/-- A stamp keeps all that a send keeps. -/
theorem Message.keptBut_stamp (m : Message Value) (entries : List (Value × Value)) (now : Int) (id : Value) :
    m.KeptBut entries now { m with
      properties := .dict (m.notedEntries entries), timestamp := (m.dated now).timestamp, messageId := id } where
  rest := rfl
  properties := by
    refine ⟨m.notedEntries entries, rfl, fun e he => m.mem_notedEntries he, ?_⟩
    unfold notedEntries
    split
    · rw [Value.lookup_store, if_pos rfl]
    · rfl
  timestamp := m.timestamp_dated now

/-- What a send leaves of the objects of a world, however it ends. -/
structure Framed {σ : Type} (destination : Value) (ref : Ref) (m : Message Value) (entries : List (Value × Value))
    (w : World σ) (cs : List Call) (v : World σ) : Prop where
  nowhere : destination.isNull = true → v = w
  message : destination.isNull = false → ∃ m', v.store.object? ref = some (.message m') ∧
    m.KeptBut entries w.wallClock m' ∧
    (m'.messageId ≠ m.messageId → m.disableMessageId.truthy = false ∧
      ∃ d o, destination = .shared d ∧ w.store.object? d = some o ∧ o.Issues w.nextIdentifier cs m'.messageId)
  target : ∀ d o h, destination = .shared d → w.store.object? d = some o → o.handle? = some h →
    ∃ o', v.store.object? d = some o' ∧ o.Bound cs o'
  others : ∀ other, ref ≠ other → (∀ h, destination = .shared other → w.handle? other ≠ some h) →
    v.store.object? other = w.store.object? other

namespace Action

variable {σ : Type} [Service σ]

theorem SendEnds.others {destination x : Value} {w : World σ} {r : EStateM.Result Fault (World σ) Unit}
    (h : SendEnds destination x w r) {other : Ref} (hx : x ≠ .shared other)
    (hd : ∀ h, destination = .shared other → w.handle? other ≠ some h) :
    (left r).store.object? other = w.store.object? other := by
  cases h with
  | nowhere | unstamped => rfl
  | @misdirected ref _ _ _ _ hx' =>
    have hne : ref ≠ other := fun heq => hx (by rw [hx', heq])
    exact Store.object?_replace_other _ hne
  | @directed d ref o handle m stamped r hdest ho hh hx' hm hs hr =>
    have hne : ref ≠ other := fun heq => hx (by rw [hx', heq])
    have hother : d ≠ other := by
      rintro rfl
      exact hd handle hdest (by rw [World.handle?_of_object ho, hh])
    obtain ⟨cs, hhands⟩ := hr.hands (World.destination_put ho hh hm stamped) (Store.object?_replace_self hm)
      (Store.ne_of_handle ho hh hm)
    rw [hhands.others other hother hne]
    exact Store.object?_replace_other _ hne

theorem SendEnds.framed {destination : Value} {ref : Ref} {m : Message Value} {entries : List (Value × Value)}
    {w : World σ} {r : EStateM.Result Fault (World σ) Unit} (h : SendEnds destination (.shared ref) w r)
    (hm : w.store.object? ref = some (.message m)) (hentries : m.properties = .dict entries) :
    ∃ cs, Makes w cs (left r) ∧ Framed destination ref m entries w cs (left r) := by
  have hstamped := Message.stamped_of_dict hentries w.wallClock
  have hkept := m.keptBut_stamp entries w.wallClock
  have hothers : ∀ other, ref ≠ other → (∀ h, destination = .shared other → w.handle? other ≠ some h) →
      (left r).store.object? other = w.store.object? other :=
    fun other hne hd => h.others (fun heq => hne (Value.shared.inj heq)) hd
  cases h with
  | nowhere hd =>
    refine ⟨[], .refl w, fun _ => rfl, ?_, ?_, hothers⟩
    · intro hsome
      rw [hd] at hsome
      cases hsome
    · intro d o _ _ ho _
      exact ⟨o, ho, .kept⟩
  | unstamped hd hs =>
    rw [run_stamp hm, hstamped] at hs
    cases hs
  | @misdirected ref' m' stamped context hd hx hm' hs hnone =>
    cases hx
    rw [hm] at hm'
    cases hm'
    rw [hstamped] at hs
    cases hs
    refine ⟨[], .put .., ?_, ?_, ?_, hothers⟩
    · intro hnull
      rw [hd] at hnull
      cases hnull
    · intro _
      exact ⟨_, Store.object?_replace_self hm, hkept m.messageId, fun hne => absurd rfl hne⟩
    · intro d o h hdest ho hh
      have hhandle : w.handle? d = some h := by rw [World.handle?_of_object ho, hh]
      exact absurd hhandle (hnone d h hdest)
  | @directed d ref' o h m' stamped r hd ho hh hx hm' hs hr =>
    cases hx
    rw [hm] at hm'
    cases hm'
    rw [hstamped] at hs
    cases hs
    subst hd
    obtain ⟨cs, hhands⟩ := hr.hands (World.destination_put ho hh hm _) (Store.object?_replace_self hm)
      (Store.ne_of_handle ho hh hm)
    refine ⟨cs, (Makes.put w ref _).trans hhands.makes, nofun, ?_, ?_, hothers⟩
    · intro _
      obtain ⟨id, hid, hissues⟩ := hhands.message
      refine ⟨_, hid, hkept id, ?_⟩
      intro hne
      obtain ⟨hwants, hissues⟩ := hissues hne
      exact ⟨hwants, d, o, rfl, ho, hissues⟩
    · intro d' o' _ hdest ho' _
      cases hdest
      rw [ho] at ho'
      cases ho'
      exact hhands.bound

/-- However a send ends, it leaves of the message all but the stamp and the ID, of the destination all but a
handle that it had not, and of all other objects everything. -/
theorem send_framed (destination : Value) {ref : Ref} {m : Message Value} {entries : List (Value × Value)}
    {w : World σ} (hm : w.store.object? ref = some (.message m)) (hentries : m.properties = .dict entries) :
    Framed destination ref m entries w ((Operation.send destination (.shared ref)).made w)
      ((Operation.send destination (.shared ref)).after w) := by
  obtain ⟨cs, hmakes, hframed⟩ := (sendEnds destination (.shared ref) w).framed hm hentries
  have hmade : (Operation.send destination (.shared ref)).made w = cs := Operation.made_eq hmakes
  exact hmade ▸ hframed

def draft : Message Value :=
  { kind := .text "message", body := .text "a", properties := .dict [(.text "colour", .text "red")],
    messageId := .null, timestamp := .null, disableMessageId := .bool false, disableTimestamp := .bool false,
    correlationId := .null, messageType := .null, destination := .null, diagnosis := none }

/-- A world with a queue that cannot be looked up. -/
def cutOff : World Script :=
  { started := 7, elapsed := 0, timers := [], running := true,
    service := ⟨[("create_queue", [⟨0, none, some (.error .noRegion)⟩])], 0, [], 0⟩,
    store := ⟨[.queue (Queue.named "orders"), .message draft]⟩, serial := 0, patience := 0, trace := [] }

/-- A message to a queue that was not found has the time of the attempt, but no ID: no queue has taken it. -/
theorem cutOff_framed :
    ∃ m', ((Operation.send (.shared 0) (.shared 1)).after cutOff).store.object? 1 = some (.message m') ∧
      draft.KeptBut [(.text "colour", .text "red")] 7 m' ∧ m'.messageId = .null := by
  have hmade : (Operation.send (.shared 0) (.shared 1)).made cutOff =
      [⟨.createQueue (.text "orders"), .error .noRegion⟩] := by
    with_unfolding_all rfl
  have hnow : cutOff.wallClock = 7 := by with_unfolding_all rfl
  have hmessage : cutOff.store.object? 1 = some (.message draft) := rfl
  have hframed := send_framed (.shared 0) hmessage rfl
  obtain ⟨m', hm', hkept, hissued⟩ := hframed.message rfl
  rw [hnow] at hkept
  refine ⟨m', hm', hkept, ?_⟩
  by_contra hid
  obtain ⟨-, d, o, hd, ho, hissues⟩ := hissued hid
  cases hd
  cases ho
  rw [hmade] at hissues
  generalize m'.messageId = id at hissues
  cases hissues with
  | queue hc _ => simp at hc

end Action

end MessageBus
