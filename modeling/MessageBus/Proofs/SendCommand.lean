import MessageBus.Command.Send
import MessageBus.Proofs.Commands
import MessageBus.Proofs.Outcomes
import MessageBus.Proofs.Batches
import MessageBus.Proofs.Refusals
import MessageBus.Script

/-!
# The send command

A send command whose arguments are in order either sends its text or reports why not (`SentOrReported`): whatever the
text says, and however the services answer or fail, as long as they do so in order. There are two exceptions. A text
that the decoder refuses for its size, since it spells too long an integer or nests too deep, ends the command with the
fault of the decoder (`Oversized`); and the command cannot print a destination whose name holds half of a UTF-16 pair.
`send_told` lists all ends.
-/

namespace MessageBus

/-- A text that the decoder refuses for its size, and the fault that it does so with. -/
inductive Oversized (t : Text) : Fault → Prop where
  | digits {limit count : Nat} (h : Json.readUnmarked .payload t = .error (.tooManyDigits limit count)) :
      Oversized t (.outOfRange (Json.ReadError.tooManyDigits limit count).message)
  | depth (h : Json.readUnmarked .payload t = .error .tooDeep) : Oversized t .tooDeep

/-- A text is refused for its size only if it has too long a number in it, or too many brackets. -/
theorem Oversized.large {t : Text} {f : Fault} (h : Oversized t f) :
    (∃ count, 4300 < count ∧ Json.HasDigits count t) ∨ 990 < Json.openings t := by
  have hrefusal {e : Json.ReadError} (he : ∀ p l c n, e ≠ .malformed p l c n)
      (hread : Json.readUnmarked .payload t = .error e) : Json.Refusal .payload t e := by
    unfold Json.readUnmarked at hread
    split at hread
    · cases hread
      exact absurd rfl (he _ _ _ _)
    · exact Json.refusal_of_read hread
  cases h with
  | digits h =>
    cases hrefusal (by simp) h with
    | tooManyDigits hcount hdigits => exact .inl ⟨_, hcount, hdigits⟩
  | depth h =>
    cases hrefusal (by simp) h with
    | tooDeep hdepth => exact .inr hdepth

theorem not_oversized_of_read {t : Text} {body : Value} (h : Json.readUnmarked .payload t = .ok body) (f : Fault) :
    ¬Oversized t f := by
  intro hoversized
  cases hoversized with
  | digits hrefused | depth hrefused =>
    rw [h] at hrefused
    cases hrefused

/-- A call is answered or fails in order, and the ID of a message that was sent can be printed. -/
def Call.WellFormed (c : Call) : Prop :=
  c.Regular ∧ ∀ url wire answer id, c = ⟨.sendMessage url wire, .ok answer⟩ →
    answer.item "MessageId" = .ok (.text id) → ∀ x ∈ id, x.isChar = true

/-! ## IDs that can be printed -/

theorem World.isChar_nextIdentifier {σ : Type} (w : World σ) : ∀ c ∈ w.nextIdentifier, c.isChar = true := by
  simp only [nextIdentifier, List.forall_mem_append]
  refine ⟨⟨Text.isChar_ofString _, fun c hc => ?_⟩, Text.isChar_ofNat _⟩
  rw [(List.mem_replicate.mp hc).2]
  rfl

/-- A text that there are words for, and that can be printed. -/
def Printable (t : Except Fault Text) : Prop := ∃ line, t = .ok line ∧ ∀ c ∈ line, c.isChar = true

theorem Message.printable_identified {m : Message Value} {id : Text} (hm : m.messageId = .null)
    (hid : ∀ c ∈ id, c.isChar = true) : Printable (m.identified id).messageId.inWords := by
  rw [messageId_identified]
  split
  · rw [hm]
    exact ⟨"None", rfl, Text.isChar_ofString "None"⟩
  · exact ⟨"ID:" ++ id, rfl, List.forall_mem_append.mpr ⟨Text.isChar_ofString "ID:", hid⟩⟩

namespace Command

variable {σ : Type} [Service σ]

/-- The ends of a command that sends one message: with exit code 0 after a service accepted one wire form, or with exit
code 1 and the line of an error, after none was accepted. -/
inductive SentOrReported (w : World σ) : Ending × World σ → Prop where
  | sent {v : World σ} {wire : Text} (h : v.accepted = w.accepted ++ [wire]) : SentOrReported w (⟨0, none⟩, v)
  | reported {v : World σ} {t : Text} (h : v.accepted = w.accepted) :
      SentOrReported w (⟨1, none⟩, v.record (.err ("Error: " ++ t)))

/-- The rest of the command once there are a destination and a message. -/
def sendAndConfirm (target ref : Ref) : Command σ Unit := do
  act (Action.send (.shared target) (.shared ref))
  let sent ← act (Action.message (.shared ref))
  let id ← words sent.2.messageId.inWords
  print ("Message sent with ID: " ++ id)

/-- The rest of the command once its text is decoded. -/
def sendDecoded (t : Text) (body : Value) (disableId : Bool) (destination : Destination) : Command σ Unit :=
  match outgoing body disableId with
  | .error _ => fail ("Message is not a plain JSON value: " ++ t)
  | .ok m => do
    let target ← act (Action.add destination.object)
    let ref ← act (Action.addMessage m)
    sendAndConfirm target ref

omit [Service σ] in
theorem run_jsonOf {t : Text} {body : Value} (hread : Json.readUnmarked .payload t = .ok body) (w : World σ) :
    EStateM.run (jsonOf t) w = .ok body w := by
  rw [jsonOf, hread]
  rfl

theorem run_sendBody {s : Surroundings} {settings : Settings} {a : Arguments} {t : Text} {body : Value}
    {destination : Destination} (w : World σ) (hsettings : s.loadedBy a = .ok settings)
    (hd : destinationOf ((a.text? "--queue-name").getD []) ((a.text? "--topic-name").getD []) = some destination)
    (ht : a.text? "--message" = some t) (hread : Json.readUnmarked .payload t = .ok body)
    (hlabel : Printable destination.label) :
    ∃ v, EStateM.run (sendBody s a) w =
        EStateM.run (sendDecoded t body (a.flag "--disable-message-id") destination) v ∧ Quiet w v := by
  obtain ⟨label, hwords, hchars⟩ := hlabel
  have hline : ("destination: " ++ label : Text).withoutControls.unencodable? = none :=
    (Text.unencodable?_withoutControls _).mpr (List.forall_mem_append.mpr ⟨Text.isChar_ofString _, hchars⟩)
  have hprint := run_print w hline
  generalize hv : w.record _ = v at hprint
  have hbefore : Quiet w v := hv ▸ Quiet.out ..
  obtain ⟨c, u, hconnector, hquiet⟩ := run_connector settings v
  refine ⟨u, ?_, hbefore.trans hquiet⟩
  rw [sendBody, hd, ht]
  dsimp only [Option.getD_some]
  rw [run_bind_of_ok (run_jsonOf hread w), run_bind_of_ok (run_words w hwords), run_bind_of_ok hprint,
    run_bind_of_ok (run_settings _ hsettings), run_bind_of_ok hconnector]
  rfl

theorem words_of_destinationOf {queueName topicName : Text} {destination : Destination}
    (h : destinationOf queueName topicName = some destination) :
    (∃ label, destination.label = .ok label) ∧ destination.object.Worded := by
  have hhandle : ∀ own, some Value.null = some own → own.Worded := by
    rintro _ ⟨⟩
    exact Value.worded_null
  unfold destinationOf at h
  split at h
  · cases h
    exact ⟨⟨_, Queue.label_named queueName⟩, Queue.named_worded queueName .null, hhandle⟩
  · cases h
    exact ⟨⟨_, Topic.label_named topicName⟩, ⟨fun _ => rfl, rfl⟩, hhandle⟩
  · cases h

/-- What a decoded text comes to as a message: a bag of properties, no ID yet, and no destination. -/
theorem of_outgoing {body : Value} {disableId : Bool} {m : Message (Option Destination)}
    (h : outgoing body disableId = .ok m) :
    (∃ entries, m.properties = .dict entries) ∧ m.messageId = .null ∧ m.destination = none := by
  obtain ⟨entries, hentries, hreads, -⟩ := Message.check_eq_ok.mp h
  obtain rfl := Value.dict.inj hentries
  obtain ⟨_, read, -, -, hread⟩ := Check.properties_eq_ok hreads.properties
  exact ⟨⟨_, hread⟩, (Except.ok.inj hreads.messageId).symm, (Except.ok.inj hreads.destination).symm⟩

theorem run_sendDecoded {t : Text} {body : Value} {disableId : Bool} {m : Message (Option Destination)}
    (destination : Destination) (w : World σ) (hm : outgoing body disableId = .ok m) :
    ∃ target ref v, EStateM.run (sendDecoded t body disableId destination) w =
        EStateM.run (sendAndConfirm target ref) v ∧ Makes w [] v ∧
      v.store.object? target = some destination.object ∧
      v.store.object? ref = some (.message (m.mapDestination fun _ => .null)) := by
  have hadd : EStateM.run (act (Action.add destination.object)) w =
      .ok w.store.objects.length (w.holding destination.object) := run_act_ok rfl
  have htarget := w.object?_holding destination.object
  generalize hv : w.holding destination.object = v at hadd htarget
  have hmessage : v.store.addMessage m = v.store.add (.message (m.mapDestination fun _ => .null)) := by
    rw [Store.addMessage, (of_outgoing hm).2.2]
    rfl
  have hmakes : Makes w [] v := .of_trace (hv ▸ rfl)
  refine ⟨w.store.objects.length, (v.store.addMessage m).1, { v with store := (v.store.addMessage m).2 }, ?_,
    hmakes.trans (.of_trace rfl), ?_, ?_⟩
  · unfold sendDecoded
    rw [hm]
    dsimp only
    rw [run_bind_of_ok hadd, run_bind_of_ok (run_act_ok (Action.run_addMessage m v))]
  · rw [hmessage]
    exact Store.object?_add_of_some htarget _
  · rw [hmessage, Store.object?_add, if_pos rfl]

theorem run_sendDecoded_refused {t : Text} {body : Value} {disableId : Bool} {issues : List Issue}
    (destination : Destination) (w : World σ) (hm : outgoing body disableId = .error issues) :
    EStateM.run (sendDecoded t body disableId destination) w =
      .error (.error ("Message is not a plain JSON value: " ++ t)) w := by
  unfold sendDecoded
  rw [hm]
  rfl

/-! ## Sending and telling -/

theorem makes_sendAndConfirm (target : Ref) {ref : Ref} {w : World σ} (hbag : Action.HasBag w (.shared ref)) :
    Makes w ((Operation.send (.shared target) (.shared ref)).made w)
      (left (EStateM.run (sendAndConfirm target ref) w)) := by
  have hcalled : (Operation.send (.shared target) (.shared ref)).Called w := hbag
  have hmakes := (Operation.reports hcalled).makes
  rw [Operation.after, Operation.action] at hmakes
  rw [sendAndConfirm]
  cases hsend : (Action.send (.shared target) (.shared ref)).run w with
  | error f v =>
    rw [hsend] at hmakes
    rw [run_bind_of_error (run_act_error hsend)]
    exact hmakes
  | ok _ v =>
    rw [hsend] at hmakes
    obtain ⟨_, _, _, _, _, _, _, _, _, _, sent, -, -, -, hx, -, -, hdelivers⟩ := Action.delivers_of_send hsend
    cases hx
    rw [run_bind_of_ok (run_act_ok hsend), run_bind_of_ok (run_act_ok (Action.run_message hdelivers.message))]
    exact hmakes.before (makes_print_words sent.messageId.inWords _ v)

/-- What is left of a message that was sent can be told by its ID. -/
theorem printable_sent {target ref : Ref} {m : Message Value} {w v : World σ}
    (hobject : w.store.object? ref = some (.message m)) (hm : m.messageId = .null)
    (hsend : (Action.send (.shared target) (.shared ref)).run w = .ok () v)
    (hwell : ∀ c ∈ (Operation.send (.shared target) (.shared ref)).made w, c.WellFormed) :
    ∃ sent, v.store.object? ref = some (.message sent) ∧ Printable sent.messageId.inWords := by
  obtain ⟨d, o, h, ref', m', stamped, lookups, handle, wire, answer, sent, -, -, hh, hx, hm', hs, hdelivers⟩ :=
    Action.delivers_of_send hsend
  cases hx
  obtain rfl := Object.message.inj (Option.some.inj (hm'.symm.trans hobject))
  obtain ⟨_, -, hstamped⟩ := Message.stamped_eq_ok hs
  have hid : stamped.messageId = .null := by rw [hstamped, hm]
  refine ⟨sent, hdelivers.message, ?_⟩
  cases o with
  | message _ => cases hh
  | topic t =>
    obtain ⟨-, rfl, -⟩ := hdelivers.topic t rfl
    exact Message.printable_identified hid w.isChar_nextIdentifier
  | queue q =>
    obtain ⟨-, -, id, hanswer, rfl⟩ := hdelivers.queue q rfl
    have hafter : (Operation.send (.shared target) (.shared ref)).after w = v := by
      rw [Operation.after, Operation.action, hsend, Action.left]
    have hmade := Operation.made_eq (hafter ▸ hdelivers.makes)
    obtain ⟨hregular, hchars⟩ := hwell ⟨.sendMessage handle wire, .ok answer⟩
      (hmade ▸ List.mem_append_right _ List.mem_cons_self)
    obtain ⟨t, ht⟩ : ∃ t, answer.item "MessageId" = .ok (.text t) := hregular
    obtain rfl := Except.ok.inj (hanswer.symm.trans ht)
    exact Message.printable_identified hid (hchars handle wire answer t rfl ht)

/-- Once there is a message, the command sends it and tells its ID, or tells why it was not sent. -/
theorem sendAndConfirm_ends {target ref : Ref} {m : Message Value} {entries : List (Value × Value)} {w : World σ}
    (hobject : w.store.object? ref = some (.message m)) (hentries : m.properties = .dict entries)
    (hm : m.messageId = .null) (htarget : Action.Directed w (.shared target))
    (hwell : ∀ c ∈ (Operation.send (.shared target) (.shared ref)).made w, c.WellFormed) :
    (∃ wire v, EStateM.run (sendAndConfirm target ref) w = .ok () v ∧ v.accepted = w.accepted ++ [wire]) ∨
      ∃ t v, EStateM.run (sendAndConfirm target ref) w = .error (.error t) v ∧ v.accepted = w.accepted := by
  have hcalled : (Operation.send (.shared target) (.shared ref)).Called w := ⟨ref, m, entries, rfl, hobject, hentries⟩
  rw [sendAndConfirm]
  cases hsend : (Action.send (.shared target) (.shared ref)).run w with
  | error f v =>
    right
    have hsurfaces := (Operation.reports hcalled).surfaces fun c hc => (hwell c hc).1
    rw [Operation.action, hsend] at hsurfaces
    obtain ⟨e, rfl⟩ | ⟨-, hpolls, -⟩ | ⟨hoverlong, -⟩ | ⟨hwordless, -⟩ := hsurfaces.ends
    · rw [run_bind_of_error (run_act_error hsend)]
      exact ⟨toldError e, v, rfl, Action.accepted_of_failed hsend fun c hc => Call.Regular.answered (hwell c hc).1⟩
    · exact hpolls.elim
    · exact hoverlong.elim
    · exact absurd htarget hwordless
  | ok _ v =>
    left
    obtain ⟨wire, hsent⟩ := Action.sent_of_run hsend
    obtain ⟨sent, hleft, id, hwords, hchars⟩ := printable_sent hobject hm hsend hwell
    have hline : ("Message sent with ID: " ++ id : Text).withoutControls.unencodable? = none :=
      (Text.unencodable?_withoutControls _).mpr (List.forall_mem_append.mpr ⟨Text.isChar_ofString _, hchars⟩)
    rw [run_bind_of_ok (run_act_ok hsend), run_bind_of_ok (run_act_ok (Action.run_message hleft)),
      run_bind_of_ok (run_words v hwords), run_print v hline]
    refine ⟨wire, _, rfl, ?_⟩
    rw [(Quiet.out ..).makes.accepted_of_nil, hsent.accepted]

/-! ## All ends -/

theorem run_sendBody_unread {s : Surroundings} {a : Arguments} {t : Text} {abort : Abort} {destination : Destination}
    {w : World σ}
    (hd : destinationOf ((a.text? "--queue-name").getD []) ((a.text? "--topic-name").getD []) = some destination)
    (ht : a.text? "--message" = some t) (hjson : EStateM.run (jsonOf t : Command σ Value) w = .error abort w) :
    EStateM.run (sendBody s a) w = .error abort w := by
  rw [sendBody, hd, ht]
  dsimp only [Option.getD_some]
  rw [run_bind_of_error hjson]

theorem run_sendBody_unprintable {s : Surroundings} {a : Arguments} {t : Text} {body : Value}
    {destination : Destination} (w : World σ)
    (hd : destinationOf ((a.text? "--queue-name").getD []) ((a.text? "--topic-name").getD []) = some destination)
    (ht : a.text? "--message" = some t) (hread : Json.readUnmarked .payload t = .ok body)
    (hlabel : ¬ Printable destination.label) :
    ∃ u, EStateM.run (sendBody s a) w = .error (.uncaught (.unencodable u)) w := by
  obtain ⟨label, hwords⟩ := (words_of_destinationOf hd).1
  have hline : ("destination: " ++ label : Text).withoutControls.unencodable? ≠ none := fun h =>
    hlabel ⟨label, hwords, (List.forall_mem_append.mp ((Text.unencodable?_withoutControls _).mp h)).2⟩
  obtain ⟨u, hu⟩ := Option.ne_none_iff_exists'.mp hline
  refine ⟨u, ?_⟩
  rw [sendBody, hd, ht]
  dsimp only [Option.getD_some]
  rw [run_bind_of_ok (run_jsonOf hread w), run_bind_of_ok (run_words w hwords),
    run_bind_of_error (run_print_error w hu)]

/-- How a send command ends that is given one destination and a text. -/
structure SendTold (s : Surroundings) (args : List Text) (t : Text) (destination : Destination) (w : World σ) :
    Prop where
  /-- A text that is no JSON is reported before anything else happens. -/
  malformed : ∀ problem line column position,
    Json.readUnmarked .payload t = .error (.malformed problem line column position) →
      ∃ told, send s args w = (⟨1, none⟩, w.record (.err ("Error: " ++ told)))
  /-- A text that the decoder refuses for its size is not reported. It has too long a number in it, or too many
  brackets. -/
  oversized : ∀ f, Oversized t f → send s args w = (⟨1, some f⟩, w) ∧
    ((∃ count, 4300 < count ∧ Json.HasDigits count t) ∨ 990 < Json.openings t)
  /-- Nor is a decoded text whose destination cannot be printed. -/
  unprintable : ∀ body, Json.readUnmarked .payload t = .ok body → ¬ Printable destination.label →
    ∃ u, send s args w = (⟨1, some (.unencodable u)⟩, w)
  /-- Every other text is sent or reported. -/
  told : (∀ f, ¬Oversized t f) → Printable destination.label → SentOrReported w (send s args w)

section ends

variable {s : Surroundings} {args : List Text} {a : Arguments} {t : Text} {destination : Destination} {w : World σ}
  (hcheck : Arguments.check (sendSpecs ++ commonSpecs) args = .ok a) (hhelp : a.flag "--help" = false)
  (hd : destinationOf ((a.text? "--queue-name").getD []) ((a.text? "--topic-name").getD []) = some destination)
  (ht : a.text? "--message" = some t)

include hcheck hhelp

theorem send_eq : send s args w = match EStateM.run (sendBody s a) w with
    | .ok _ v => (⟨0, none⟩, v)
    | .error abort v => tell v abort :=
  run_of_checked w hcheck hhelp

include hd ht

theorem send_unread {abort : Abort} (hjson : EStateM.run (jsonOf t : Command σ Value) w = .error abort w) :
    send s args w = tell w abort := by
  rw [send_eq hcheck hhelp, run_sendBody_unread hd ht hjson]

theorem send_malformed {problem : Json.Problem} {line column position : Nat}
    (hread : Json.readUnmarked .payload t = .error (.malformed problem line column position)) :
    ∃ told, send s args w = (⟨1, none⟩, w.record (.err ("Error: " ++ told))) := by
  have hjson : EStateM.run (jsonOf t : Command σ Value) w = .error (.error ("Invalid JSON: " ++ t)) w := by
    rw [jsonOf, hread]
    rfl
  exact ⟨_, send_unread hcheck hhelp hd ht hjson⟩

/-- A decoded text is sent or reported, if its destination can be printed. -/
theorem sentOrReported_of_read {settings : Settings} {body : Value} (hsettings : s.loadedBy a = .ok settings)
    (hread : Json.readUnmarked .payload t = .ok body) (hlabel : Printable destination.label)
    (hwell : ∀ c ∈ madeBy w (send s args w), c.WellFormed) : SentOrReported w (send s args w) := by
  obtain ⟨v, hbody, hquiet⟩ := run_sendBody w hsettings hd ht hread hlabel
  have haccepted : v.accepted = w.accepted := hquiet.makes.accepted_of_nil
  cases hm : outgoing body (a.flag "--disable-message-id") with
  | error issues =>
    rw [send_eq hcheck hhelp, hbody, run_sendDecoded_refused destination v hm]
    exact .reported haccepted
  | ok m =>
    obtain ⟨target, ref, u, hdecoded, hmakes, htarget, hobject⟩ := run_sendDecoded (t := t) destination v hm
    obtain ⟨⟨entries, hentries⟩, hid, -⟩ := of_outgoing hm
    have hrun := hbody.trans hdecoded
    have hbefore : u.accepted = w.accepted := hmakes.accepted_of_nil.trans haccepted
    -- all that the command asks of the services is what the one send asks of them
    have hmade : madeBy w (send s args w) = (Operation.send (.shared target) (.shared ref)).made u := by
      have hall := (hquiet.makes.trans hmakes).trans
        (makes_sendAndConfirm target ⟨ref, _, entries, rfl, hobject, hentries⟩)
      rw [← hrun] at hall
      exact madeBy_eq (makes_of_checked hcheck hhelp hall)
    rw [hmade] at hwell
    rw [send_eq hcheck hhelp, hrun]
    have hdirected : Action.Directed u (.shared target) := by
      rintro _ o _ ⟨⟩ ho -
      cases htarget.symm.trans ho
      exact (words_of_destinationOf hd).2
    rcases sendAndConfirm_ends hobject hentries hid hdirected hwell with
      ⟨wire, z, hends, hsent⟩ | ⟨told, z, hends, hkept⟩
    · rw [hends]
      exact .sent (hsent.trans (by rw [hbefore]))
    · rw [hends]
      exact .reported (hkept.trans hbefore)

end ends

/-- Every text of a send command is sent or reported, but for those that the decoder refuses for their size. -/
theorem send_told {s : Surroundings} {settings : Settings} {args : List Text} {a : Arguments} {t : Text}
    {destination : Destination} {w : World σ} (hcheck : Arguments.check (sendSpecs ++ commonSpecs) args = .ok a)
    (hhelp : a.flag "--help" = false) (hsettings : s.loadedBy a = .ok settings)
    (hd : destinationOf ((a.text? "--queue-name").getD []) ((a.text? "--topic-name").getD []) = some destination)
    (ht : a.text? "--message" = some t) (hwell : ∀ c ∈ madeBy w (send s args w), c.WellFormed) :
    SendTold s args t destination w := by
  constructor
  case malformed => exact fun _ _ _ _ hread => send_malformed hcheck hhelp hd ht hread
  case oversized =>
    intro f hf
    have hjson : EStateM.run (jsonOf t : Command σ Value) w = .error (.uncaught f) w := by
      cases hf with
      | digits hread | depth hread =>
        rw [jsonOf, hread]
        rfl
    exact ⟨send_unread hcheck hhelp hd ht hjson, hf.large⟩
  case unprintable =>
    intro body hread hlabel
    obtain ⟨u, hbody⟩ := run_sendBody_unprintable (s := s) w hd ht hread hlabel
    rw [send_eq hcheck hhelp, hbody]
    exact ⟨u, rfl⟩
  case told =>
    intro hfits hlabel
    cases hread : Json.readUnmarked .payload t with
    | ok body => exact sentOrReported_of_read hcheck hhelp hd ht hsettings hread hlabel hwell
    | error e =>
      cases e with
      | malformed =>
        obtain ⟨told, hsend⟩ := send_malformed (w := w) hcheck hhelp hd ht hread
        rw [hsend]
        exact .reported rfl
      | tooManyDigits => exact absurd (.digits hread) (hfits _)
      | tooDeep => exact absurd (.depth hread) (hfits _)

/-! ## A queue and two texts -/

/-- A queue is found, or sent to, with an answer that has the text that it takes. -/
def brings : Call → Bool
  | ⟨.createQueue _, .ok answer⟩ => match answer.item "QueueUrl" with
    | .ok (.text _) => true
    | _ => false
  | ⟨.sendMessage _ _, .ok answer⟩ => match answer.item "MessageId" with
    | .ok (.text id) => id.all CodePoint.isChar
    | _ => false
  | _ => false

theorem wellFormed_of_brings {c : Call} (h : brings c = true) : c.WellFormed := by
  unfold brings at h
  split at h
  · split at h
    · next url hurl => exact ⟨⟨url, hurl⟩, nofun⟩
    · cases h
  · split at h
    · next id hid =>
      refine ⟨⟨id, hid⟩, ?_⟩
      intro _ _ _ _ hc hid'
      cases hc
      cases hid.symm.trans hid'
      exact List.all_eq_true.mp h
    · cases h
  · cases h

def naming (name t : Text) : List Text := ["--queue-name", name, "--message", t]

theorem check_naming (name t : Text) : Arguments.check (sendSpecs ++ commonSpecs) (naming name t) =
    .ok ⟨[("--queue-name", some name), ("--message", some t)], []⟩ := by
  rfl

def nested : Text := List.replicate 991 (.char '[')

/-- A world in which nothing has happened yet. -/
def untouched : World Script :=
  { started := 0, elapsed := 0, timers := [], running := true, service := ⟨[], 0, [], 0⟩, store := .empty, serial := 0,
    patience := 0, trace := [] }

/-- A text is sent to a queue, and another one is neither sent nor reported. -/
theorem nested_untold :
    (∃ wire v, send ⟨[], none, none⟩ (naming "orders" "[1]") untouched = (⟨0, none⟩, v) ∧ v.accepted = [wire]) ∧
      send ⟨[], none, none⟩ (naming "orders" nested) untouched = (⟨1, some .tooDeep⟩, untouched) := by
  have htold (t : Text)
      (h : (madeBy untouched (send ⟨[], none, none⟩ (naming "orders" t) untouched)).all brings = true) :
      SendTold ⟨[], none, none⟩ (naming "orders" t) t (.queue (Queue.named "orders")) untouched :=
    send_told (check_naming "orders" t) rfl rfl rfl rfl fun c hc => wellFormed_of_brings (List.all_eq_true.mp h c hc)
  constructor
  · have hread : Json.readUnmarked .payload "[1]" = .ok (.list [.int 1]) := by with_unfolding_all rfl
    have hsent := (htold "[1]" (by decide +kernel)).told (not_oversized_of_read hread) ⟨_, rfl, by decide +kernel⟩
    have hcode : (send ⟨[], none, none⟩ (naming "orders" "[1]") untouched).1.code = 0 := by decide +kernel
    generalize send ⟨[], none, none⟩ (naming "orders" "[1]") untouched = r at hsent hcode
    cases hsent with
    | sent haccepted => exact ⟨_, _, rfl, haccepted⟩
    | reported => cases hcode
  · refine ((htold nested (by decide +kernel)).oversized .tooDeep (.depth ?_)).1
    have hrefused : ((Json.readUnmarked .payload nested).map fun _ => ()) = .error .tooDeep := by decide +kernel
    cases hread : Json.readUnmarked .payload nested with
    | ok _ =>
      rw [hread] at hrefused
      cases hrefused
    | error e =>
      rw [hread] at hrefused
      cases hrefused
      rfl

end Command

end MessageBus
