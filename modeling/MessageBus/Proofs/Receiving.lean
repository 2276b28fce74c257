import MessageBus.Proofs.Checks
import MessageBus.Proofs.Lookup
import MessageBus.Proofs.Polling
import MessageBus.Proofs.Wording

/-!
# From a record to a message

A whole record, one with an ID, a receipt handle and a body, always becomes a message, whatever its body
is (`converted_of_whole`): a body that cannot be read gives a stand-in. Receiving is a lookup, the polling
loop, and handing over what the loop gave (`receive_eq`).
-/

namespace MessageBus

namespace Codec

/-- A payload that is read spells a value that describes the message. -/
theorem check_of_deserialize {payload : Value} {m : Message (Option Destination)}
    (h : deserialize payload = .ok m) : ∃ v, Message.check .caller v = .ok m := by
  unfold deserialize at h
  split at h
  · cases h
  · next v hv =>
    unfold ofDecoded at h
    split at h
    · cases h
    · split at h
      · split at h
        · split at h
          · next hcheck =>
            cases h
            exact ⟨_, hcheck⟩
          · cases h
        · cases h
      · cases h

/-- A payload that is read has a dictionary for its properties. -/
theorem properties_of_deserialize {payload : Value} {m : Message (Option Destination)}
    (h : deserialize payload = .ok m) : ∃ read, m.properties = Value.ofEntries read := by
  obtain ⟨v, hcheck⟩ := check_of_deserialize h
  obtain ⟨_, -, hm, -⟩ := Message.check_eq_ok.mp hcheck
  obtain ⟨_, read, -, -, hread⟩ := Check.properties_eq_ok hm.properties
  exact ⟨read, hread⟩

/-- The message that a payload describes, or the stand-in for it. -/
def readOrStandIn (payload : Value) : Message (Option Destination) :=
  match deserialize payload with
  | .ok m => m
  | .error e => .standIn e

theorem properties_readOrStandIn (payload : Value) :
    ∃ entries, (readOrStandIn payload).properties = .dict entries := by
  unfold readOrStandIn
  split
  · next h =>
    obtain ⟨read, hread⟩ := properties_of_deserialize h
    exact ⟨_, hread⟩
  · exact ⟨[], rfl⟩

end Codec

/-- A record with all that a message is made from. -/
def Whole (record : Value) : Prop :=
  ∃ id handle body, (record.item "MessageId" = .ok id ∧ id.Tellable) ∧ record.item "ReceiptHandle" = .ok handle ∧
    record.item "Body" = .ok body

/-- The message that a record becomes in the hands of its receiver. -/
def converted (record queue : Value) : Except Fault (Message Value) := do
  let body ← record.item "Body"
  Action.received record queue (Codec.readOrStandIn body)

namespace Message

variable {δ : Type}

/-- Whether a bag of properties says that its message has no ID. -/
def declaresNoId (entries : List (Value × Value)) : Bool :=
  ((Value.lookup idDisabledKey entries).getD (.bool false)).truthy

theorem isIdDisabled_of_dict {m : Message δ} {entries : List (Value × Value)}
    (h : m.properties = .dict entries) : m.isIdDisabled = .ok (declaresNoId entries) := by
  simp [isIdDisabled, property, h, declaresNoId, Except.map]

end Message

/-- A received message: its ID unless its properties decline one, its receipt handle among the properties,
and the queue that it came from. -/
theorem received_eq {record queue id handle : Value} {m : Message (Option Destination)}
    {entries : List (Value × Value)} (hid : record.item "MessageId" = .ok id) (htold : id.Tellable)
    (hhandle : record.item "ReceiptHandle" = .ok handle) (hm : m.properties = .dict entries) :
    Action.received record queue m = .ok
      { m.mapDestination fun _ => queue with
        messageId := if Message.declaresNoId entries then m.messageId else .text ("ID:" ++ id.shown)
        properties := .dict (Value.store receiptKey handle entries) } := by
  have hwords : id.inWords = .ok id.shown := htold
  cases hd : Message.declaresNoId entries <;>
    simp [Action.received, Message.isIdDisabled_of_dict hm, hd, hid, hwords, hhandle, Message.withProperty, hm,
      Message.mapDestination, bind, Except.bind]

/-- What is left to do for a message once its ID is there. -/
theorem eq_of_marked {record queue : Value} {m : Message (Option Destination)} {got : Message Value}
    {entries : List (Value × Value)} (hm : m.properties = .dict entries)
    (h : (record.item "ReceiptHandle" >>= fun handle => m.withProperty receiptKey handle >>= fun m =>
      .ok (m.mapDestination fun _ => queue)) = .ok got) :
    ∃ handle, record.item "ReceiptHandle" = .ok handle ∧ got = { m.mapDestination fun _ => queue with
      properties := .dict (Value.store receiptKey handle entries) } := by
  obtain ⟨handle, hhandle, h⟩ := bind_eq_ok.mp h
  rw [Message.withProperty, hm] at h
  exact ⟨handle, hhandle, (Except.ok.inj h).symm⟩

/-- Whatever becomes of a record has kept the rest of what was read. -/
theorem eq_of_received {record queue : Value} {m : Message (Option Destination)} {got : Message Value}
    {entries : List (Value × Value)} (hm : m.properties = .dict entries)
    (h : Action.received record queue m = .ok got) :
    ∃ (id : Text) (handle : Value), (∀ v, record.item "MessageId" = .ok v → id = v.shown) ∧
      record.item "ReceiptHandle" = .ok handle ∧ got = { m.mapDestination fun _ => queue with
        messageId := if Message.declaresNoId entries then m.messageId else .text ("ID:" ++ id)
        properties := .dict (Value.store receiptKey handle entries) } := by
  rw [Action.received, Message.isIdDisabled_of_dict hm] at h
  cases hd : Message.declaresNoId entries with
  | true =>
    -- the ID of the record is not looked at when the sender wanted none
    rw [hd] at h
    obtain ⟨handle, hhandle, rfl⟩ := eq_of_marked hm h
    refine ⟨((record.item "MessageId").toOption.map Value.shown).getD [], handle, fun v hv => ?_, hhandle, rfl⟩
    rw [hv]
    rfl
  | false =>
    rw [hd] at h
    obtain ⟨_, ⟨⟩, h⟩ := bind_eq_ok.mp h
    simp only [Bool.false_eq_true, if_false] at h
    obtain ⟨id, hid, h⟩ := bind_eq_ok.mp h
    obtain ⟨t, ht, h⟩ := bind_eq_ok.mp h
    obtain ⟨handle, hhandle, rfl⟩ := eq_of_marked (m := { m with messageId := .text ("ID:" ++ t) }) hm h
    refine ⟨t, handle, fun v hv => ?_, hhandle, rfl⟩
    cases hid.symm.trans hv
    exact Value.inWords_eq_ok ht

theorem converted_of_whole {record : Value} (queue : Value) (h : Whole record) :
    ∃ m, converted record queue = .ok m := by
  obtain ⟨id, handle, body, ⟨hid, htold⟩, hhandle, hbody⟩ := h
  obtain ⟨entries, hentries⟩ := Codec.properties_readOrStandIn body
  exact ⟨_, by rw [converted, hbody]; exact received_eq hid htold hhandle hentries⟩

/-- What a wire form is read as becomes the received message. -/
theorem converted_eq_ok {record queue id : Value} {wire : Text} {read : Message (Option Destination)}
    {entries : List (Value × Value)} {got : Message Value} (hbody : record.item "Body" = .ok (.text wire))
    (hid : record.item "MessageId" = .ok id) (hread : Codec.deserialize (.text wire) = .ok read)
    (hentries : read.properties = .dict entries) (h : converted record queue = .ok got) :
    ∃ handle, record.item "ReceiptHandle" = .ok handle ∧
      got = { read.mapDestination fun _ => queue with
        messageId := if Message.declaresNoId entries then read.messageId else .text ("ID:" ++ id.shown)
        properties := .dict (Value.store receiptKey handle entries) } := by
  have hstand : Codec.readOrStandIn (.text wire) = read := by rw [Codec.readOrStandIn, hread]
  rw [converted, hbody] at h
  have hreceived : Action.received record queue read = .ok got := by
    rw [← hstand]
    exact h
  obtain ⟨id', handle, hshown, hhandle, rfl⟩ := eq_of_received hentries hreceived
  exact ⟨handle, hhandle, by rw [hshown id hid]⟩

namespace World

variable {σ : Type}

/-- The world after a look at a payload: one that is no JSON leaves a log line. -/
def heeded (w : World σ) (payload : Value) : World σ :=
  match Codec.decodePayload payload with
  | .ok _ => w
  | .error detail =>
    w.record (.log .error .codec (BusError.message ⟨.serialization, Codec.undecodable, detail⟩))

@[simp] theorem store_heeded (w : World σ) (payload : Value) : (w.heeded payload).store = w.store := by
  unfold heeded
  split <;> rfl

@[simp] theorem service_heeded (w : World σ) (payload : Value) : (w.heeded payload).service = w.service := by
  unfold heeded
  split <;> rfl

theorem trace_heeded (w : World σ) (payload : Value) :
    ∃ logs, (w.heeded payload).trace = w.trace ++ logs ∧ ∀ e ∈ logs, e.isLog := by
  unfold heeded
  split
  · exact ⟨[], by simp, by simp⟩
  · refine ⟨_, rfl, ?_⟩
    rintro e (_ | ⟨_, ⟨⟩⟩)
    exact isLog_now ..

/-- The world with one more object. -/
def holding (w : World σ) (o : Object) : World σ := { w with store := (w.store.add o).2 }

theorem object?_holding (w : World σ) (o : Object) :
    (w.holding o).store.object? w.store.objects.length = some o := by
  rw [holding, Store.object?_add]
  exact if_pos rfl

end World

namespace Action

variable {σ : Type}

theorem run_read (payload : Value) (w : World σ) :
    (read payload).run w = .ok (Codec.deserialize payload) (w.heeded payload) := by
  unfold read World.heeded Codec.deserialize
  cases Codec.decodePayload payload <;> rfl

/-- A record with a body becomes a message, once its body was looked at. -/
theorem run_convert_body {record body : Value} (queue : Value) (w : World σ)
    (hbody : record.item "Body" = .ok body) :
    (convert record queue).run w =
      (lift (converted record queue) >>= fun m => add (.message m)).run (w.heeded body) := by
  have hconverted : converted record queue = received record queue (Codec.readOrStandIn body) := by
    rw [converted, hbody]
    rfl
  rw [convert, hbody, hconverted, run_bind_of_ok (run_lift_ok _ _), run_bind_of_ok (run_read _ _)]
  rfl

theorem run_convert {record queue body : Value} {m : Message Value} {w : World σ}
    (hbody : record.item "Body" = .ok body) (hm : converted record queue = .ok m) :
    (convert record queue).run w = .ok (w.store.add (.message m)).1 ((w.heeded body).holding (.message m)) := by
  rw [run_convert_body queue w hbody, hm, run_bind_of_ok (run_lift_ok _ _), run_add, World.store_heeded]
  simp [World.holding]

/-- The world with the log line of a record that is handed over. -/
def arrived (w : World σ) (id : Value) : World σ :=
  w.note .info .connector (id.inWords.map fun t => "Received message " ++ t)

/-- Hands over what the polling loop gave. -/
def handOver (queue : Value) : Option Value → Action σ (Option Ref)
  | none => pure none
  | some record => do
    let id ← lift (record.item "MessageId")
    logTold .info .connector (id.inWords.map fun t => "Received message " ++ t)
    return some (← convert record queue)

/-- The world in which a record was handed over as a message. -/
def taken (w : World σ) (id body : Value) (m : Message Value) : World σ :=
  ((arrived w id).heeded body).holding (.message m)

theorem store_taken (w : World σ) (id body : Value) (m : Message Value) :
    (taken w id body m).store = (w.store.add (.message m)).2 := by
  have hheeded := (arrived w id).store_heeded body
  rw [taken, World.holding, hheeded]
  rfl

theorem service_taken (w : World σ) (id body : Value) (m : Message Value) :
    (taken w id body m).service = w.service :=
  (arrived w id).service_heeded body

theorem run_handOver {record queue id body : Value} {m : Message Value} {w : World σ}
    (hid : record.item "MessageId" = .ok id) (hbody : record.item "Body" = .ok body)
    (hm : converted record queue = .ok m) :
    (handOver queue (some record)).run w =
      .ok (some (w.store.add (.message m)).1) (taken w id body m) := by
  rw [handOver, hid, run_bind_of_ok (run_lift_ok _ _), run_bind_of_ok (run_logTold _ _ _ _),
    run_bind_of_ok (run_convert hbody hm)]
  rfl

/-- All that handing over can do. -/
inductive HandOverEnds (queue : Value) (u : World σ) :
    Option Value → EStateM.Result Fault (World σ) (Option Ref) → Prop where
  | nothing : HandOverEnds queue u none (.ok none u)
  | nameless {record : Value} {f : Fault} (hid : record.item "MessageId" = .error f) :
      HandOverEnds queue u (some record) (.error f u)
  | bodiless {record id : Value} {f : Fault} (hid : record.item "MessageId" = .ok id)
      (hbody : record.item "Body" = .error f) :
      HandOverEnds queue u (some record) (.error f (arrived u id))
  /-- What the body says becomes no message. -/
  | unmade {record id body : Value} {f : Fault} (hid : record.item "MessageId" = .ok id)
      (hbody : record.item "Body" = .ok body) (hm : converted record queue = .error f) :
      HandOverEnds queue u (some record) (.error f ((arrived u id).heeded body))
  | handed {record id body : Value} {m : Message Value} (hid : record.item "MessageId" = .ok id)
      (hbody : record.item "Body" = .ok body) (hm : converted record queue = .ok m) :
      HandOverEnds queue u (some record) (.ok (some (u.store.add (.message m)).1) (taken u id body m))

theorem handOverEnds (queue : Value) (a : Option Value) (u : World σ) :
    HandOverEnds queue u a ((handOver queue a).run u) := by
  cases a with
  | none => exact .nothing
  | some record =>
    cases hid : record.item "MessageId" with
    | error f =>
      rw [handOver, hid]
      exact .nameless hid
    | ok id =>
      cases hbody : record.item "Body" with
      | error f =>
        rw [handOver, hid, run_bind_of_ok (run_lift_ok _ _), run_bind_of_ok (run_logTold _ _ _ _), convert, hbody]
        exact .bodiless hid hbody
      | ok body =>
        cases hm : converted record queue with
        | error f =>
          rw [handOver, hid, run_bind_of_ok (run_lift_ok _ _), run_bind_of_ok (run_logTold _ _ _ _), EStateM.run_bind,
            run_convert_body queue _ hbody, hm]
          exact .unmade hid hbody hm
        | ok m =>
          rw [run_handOver hid hbody hm]
          exact .handed hid hbody hm

theorem HandOverEnds.trace {queue : Value} {a : Option Value} {u : World σ}
    {r : EStateM.Result Fault (World σ) (Option Ref)} (h : HandOverEnds queue u a r) :
    ∃ logs, (left r).trace = u.trace ++ logs ∧ ∀ e ∈ logs, e.isLog := by
  have hheeded (id body : Value) : ∃ logs, ((arrived u id).heeded body).trace = u.trace ++ logs ∧
      ∀ e ∈ logs, e.isLog := by
    obtain ⟨logs, htrace, hlogs⟩ := World.trace_heeded (arrived u id) body
    refine ⟨_, by rw [htrace, arrived, World.trace_note, List.append_assoc], fun e he => ?_⟩
    exact (List.mem_append.mp he).elim World.isLog_of_mem_noted (hlogs e)
  cases h with
  | nothing => exact ⟨[], by simp [left], by simp⟩
  | nameless hid => exact ⟨[], by simp [left], by simp⟩
  | bodiless hid hbody => exact ⟨_, World.trace_note .., fun e he => World.isLog_of_mem_noted he⟩
  | unmade hid hbody hm => exact hheeded _ _
  | handed hid hbody hm => exact hheeded _ _

theorem handOver_trace (queue : Value) (a : Option Value) (u : World σ) :
    ∃ logs, (left ((handOver queue a).run u)).trace = u.trace ++ logs ∧ ∀ e ∈ logs, e.isLog :=
  (handOverEnds queue a u).trace

variable [Service σ]

theorem receive_eq (c : Connector) (queue : Value) (timeout : Int) :
    (receive c queue timeout : Action σ (Option Ref)) = (do
      let start := (← get).elapsed
      let url ← resolveQueue queue
      handOver queue (← awaiting c queue url timeout start)) := by
  funext w
  simp only [receive, awaiting, bind_assoc]
  change EStateM.run _ w = EStateM.run _ w
  rw [run_bind_of_ok (EStateM.run_get w), run_bind_of_ok (EStateM.run_get w)]
  cases hr : (resolveQueue queue).run w with
  | error f v => rw [run_bind_of_error hr, run_bind_of_error hr]
  | ok url v =>
    rw [run_bind_of_ok hr, run_bind_of_ok hr, run_bind_of_ok (EStateM.run_get v),
      run_bind_of_ok (EStateM.run_get v), EStateM.run_bind, EStateM.run_bind]
    split
    · next r u _ => cases r <;> rfl
    · rfl

/-- A receive whose queue is resolved is the loop and the handing over. -/
theorem run_receive_of_resolved (c : Connector) {queue url : Value} (timeout : Int) {w v : World σ}
    (h : (resolveQueue queue).run w = .ok url v) :
    (receive c queue timeout).run w =
      (do handOver queue (← awaiting c queue url timeout w.elapsed) : Action σ (Option Ref)).run v := by
  rw [receive_eq, run_bind_of_ok (EStateM.run_get w), run_bind_of_ok h]

theorem run_receive_of_unresolved (c : Connector) {queue : Value} (timeout : Int) {w v : World σ} {f : Fault}
    (h : (resolveQueue queue).run w = .error f v) : (receive c queue timeout).run w = .error f v := by
  rw [receive_eq, run_bind_of_ok (EStateM.run_get w), run_bind_of_error h]

end Action

end MessageBus
