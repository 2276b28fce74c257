import MessageBus.Proofs.MessageIds
import MessageBus.Proofs.PlainService

/-!
# Delivery through a queue

Messages that are sent to a plain queue arrive there, each once and in order, and each as the message that was
sent (`delivered_in_order`). Behind each body that waits stands the sent message, which the body conveys
(`Pending`): a send puts one more such body at the end, and a receive takes the first one and makes a message
of it. The sender assigns the ID after the message is written, and the receiver after the body is read; both
assign the same one (`Conveys.received`).
-/

namespace MessageBus

open Value

namespace Message

/-- The message is one that a value describes, whatever its destination became. -/
def Built (m : Message Value) : Prop :=
  ∃ v d, check .caller v = .ok d ∧ m = d.mapDestination fun _ => m.destination

/-- The message is built and was not sent before. -/
structure Fresh (m : Message Value) : Prop where
  built : m.Built
  unidentified : m.messageId = .null
  undeclared : m.hasProperty idDisabledKey = .ok false

/-- The fields are such as the checks let through. -/
structure Typed {δ : Type} (m : Message δ) : Prop where
  diagnosis : m.diagnosis = none
  body : m.body.Bare
  properties : ∃ entries, m.properties = .dict entries ∧ ∀ e ∈ entries, e.2.Bare
  timestamp : m.timestamp = .null ∨ ∃ n, m.timestamp = .int n
  disableMessageId : ∃ b, m.disableMessageId = .bool b
  disableTimestamp : ∃ b, m.disableTimestamp = .bool b

theorem Reads.typed {origin : Origin} {kind : Text} {entries : List (Value × Value)}
    {m : Message (Option Destination)} (h : Reads origin kind entries m) (hd : m.diagnosis = none) :
    m.Typed where
  diagnosis := hd
  body := h.valid.bare.body
  properties := by
    obtain ⟨_, read, _, hread, hproperties⟩ := Check.properties_eq_ok h.properties
    have hbare : ∀ e ∈ read, e.2.Bare := fun e he => (Check.isJson_of_jsonEntries hread e he).1.bare
    exact ⟨_, hproperties, forall_storeAll hbare (by simp)⟩
  timestamp := Check.optionalInteger_eq_ok h.timestamp
  disableMessageId := by
    obtain ⟨b, _, hb⟩ := map_eq_ok.mp h.disableMessageId
    exact ⟨b, hb.symm⟩
  disableTimestamp := by
    obtain ⟨b, _, hb⟩ := map_eq_ok.mp h.disableTimestamp
    exact ⟨b, hb.symm⟩

theorem Built.typed {m : Message Value} (h : m.Built) : m.Typed := by
  obtain ⟨v, d, hcheck, hm⟩ := h
  obtain ⟨entries, _, hreads, hdiagnosis⟩ := check_eq_ok.mp hcheck
  have htyped := hreads.typed hdiagnosis
  rw [hm]
  exact ⟨htyped.diagnosis, htyped.body, htyped.properties, htyped.timestamp, htyped.disableMessageId,
    htyped.disableTimestamp⟩

theorem Typed.stamped {now : Int} {m marked : Message Value} (h : m.Typed)
    (hstamped : m.stamped now = .ok marked) : marked.Typed := by
  obtain ⟨noted, hnoted, rfl⟩ := stamped_eq_ok hstamped
  refine ⟨h.diagnosis, h.body, ?_, ?_, h.disableMessageId, h.disableTimestamp⟩
  · obtain ⟨entries, hentries, hbare⟩ := h.properties
    unfold Message.noted at hnoted
    split at hnoted
    · obtain ⟨entries', hentries', rfl⟩ := withProperty_eq_ok hnoted
      rw [hentries] at hentries'
      cases hentries'
      refine ⟨_, rfl, fun e he => ?_⟩
      obtain rfl | he := mem_store he
      · exact bare_bool true
      · exact hbare e he
    · cases hnoted
      exact ⟨entries, hentries, hbare⟩
  · dsimp only
    rw [dated]
    split
    · exact h.timestamp
    · exact .inr ⟨now, rfl⟩

end Message

theorem eq_of_told_time {s : Store} {v u : Value} (hv : v = .null ∨ ∃ n, v = .int n)
    (hu : u = .null ∨ ∃ n, u = .int n) (h : same v (s.told u) = true) : v = u := by
  obtain rfl | ⟨n, rfl⟩ := hu
  · rw [Store.told_of_bare bare_null] at h
    obtain rfl | ⟨m, rfl⟩ := hv
    · rfl
    · simp [same, sameNumber, toRat?] at h
  · rw [Store.told_of_bare (bare_int n)] at h
    obtain rfl | ⟨m, rfl⟩ := hv
    · cases eq_null_of_same h
    · rw [eq_of_same_int h]

theorem eq_of_told_flag {s : Store} {v u : Value} (hv : ∃ b, v = .bool b) (hu : ∃ b, u = .bool b)
    (h : same v (s.told u) = true) : v = u := by
  obtain ⟨a, rfl⟩ := hv
  obtain ⟨b, rfl⟩ := hu
  rw [Store.told_of_bare (bare_bool b)] at h
  rw [eq_of_same_bool h]

/-- What is read of the body of a sent message conveys it: all but the ID is there, and whether there is one. -/
structure Conveys (id : Text) (sent : Message Value) (read : Message (Option Destination)) : Prop where
  diagnosis : read.diagnosis = none
  body : same read.body sent.body = true
  properties : ∃ stored entries, read.properties = .dict stored ∧ sent.properties = .dict entries ∧
    Keyed stored ∧ same (.dict stored) (.dict entries) = true ∧
    Message.declaresNoId stored = sent.disableMessageId.truthy
  timestamp : read.timestamp = sent.timestamp
  disableMessageId : read.disableMessageId = sent.disableMessageId
  disableTimestamp : read.disableTimestamp = sent.disableTimestamp
  correlationId : read.correlationId = sent.correlationId
  messageType : read.messageType = sent.messageType
  unidentified : read.messageId = .null
  messageId : sent.messageId = if sent.disableMessageId.truthy then .null else .text ("ID:" ++ id)

/-- A fresh message whose stamped form is written is conveyed by the wire form. -/
theorem Message.Fresh.conveyed {s : Store} {m marked : Message Value} {now : Int} {wire : Text} (h : m.Fresh)
    (hstamped : m.stamped now = .ok marked) (hwire : Codec.serialize (marked.map s.expanded) = .ok wire)
    (id : Text) :
    ∃ read, Codec.deserialize (.text wire) = .ok read ∧ Conveys id (marked.identified id) read := by
  have hmarked := h.built.typed.stamped hstamped
  obtain ⟨read, hread, hcarries⟩ := Codec.carried hmarked.diagnosis hwire
  obtain ⟨_, hreads⟩ := hcarries.reads
  have htyped := hreads.typed hcarries.diagnosis
  obtain ⟨stored, hstored, hkeyed⟩ := hcarries.keyed
  -- the note that there is no ID is in the written properties, and nothing declined an ID before
  obtain ⟨entries, hentries, _⟩ := h.built.typed.properties
  obtain ⟨marks, hmarks, hdeclares, _⟩ := Message.declaresNoId_of_stamped hentries hstamped
  have hundeclared : Message.declaresNoId entries = false := by
    have hnone := h.undeclared
    rw [Message.hasProperty, hentries, contains, Except.ok.injEq, Option.isSome_eq_false_iff,
      Option.isNone_iff_eq_none] at hnone
    rw [Message.declaresNoId, hnone]
    rfl
  rw [hundeclared, Bool.or_false] at hdeclares
  obtain ⟨_, _, hparts⟩ := Message.stamped_eq_ok hstamped
  have hflag : marked.disableMessageId = m.disableMessageId := by rw [hparts]
  have hid : marked.messageId = .null := by
    rw [hparts]
    exact h.unidentified
  have hsent : marked.identified id =
      { marked with messageId := if marked.disableMessageId.truthy then .null else .text ("ID:" ++ id) } := by
    rw [Message.identified, ← hid]
    split <;> rfl
  have hsame : same (.dict stored) (.dict marks) = true := by
    obtain ⟨marks', hmarks', hbare⟩ := hmarked.properties
    rw [hmarks, Value.dict.injEq] at hmarks'
    rw [← hmarks'] at hbare
    have hproperties := hcarries.properties
    rwa [hstored, hmarks, Store.told_of_bare (bare_dict hbare)] at hproperties
  refine ⟨read, hread, ?_⟩
  rw [hsent]
  refine ⟨hcarries.diagnosis, ?_, ⟨stored, marks, hstored, hmarks, hkeyed, hsame, ?_⟩, ?_, ?_, ?_,
    hcarries.correlationId, hcarries.messageType, hcarries.messageId.trans hid, rfl⟩
  · have hbody := hcarries.body
    rwa [Store.told_of_bare hmarked.body] at hbody
  · rw [Message.declaresNoId_of_same hkeyed hsame, hdeclares, hflag]
  · exact eq_of_told_time htyped.timestamp hmarked.timestamp hcarries.timestamp
  · exact eq_of_told_flag htyped.disableMessageId hmarked.disableMessageId hcarries.disableMessageId
  · exact eq_of_told_flag htyped.disableTimestamp hmarked.disableTimestamp hcarries.disableTimestamp

/-- What is received is the message that was sent: with the same ID, which is the one that the service assigned
unless the sender wanted none, with the handle of its delivery among its properties, and with the queue that it
came from. -/
structure Faithful (queue : Value) (id handle : Text) (sent got : Message Value) : Prop where
  type : got.type = .message
  body : same got.body sent.body = true
  properties : ∃ entries, sent.properties = .dict entries ∧
    same got.properties (.dict (store receiptKey (.text handle) entries)) = true
  receiptHandle : got.receiptHandle = .ok (.text handle)
  messageId : got.messageId = sent.messageId
  assigned : sent.messageId = if sent.disableMessageId.truthy then .null else .text ("ID:" ++ id)
  timestamp : got.timestamp = sent.timestamp
  disableMessageId : got.disableMessageId = sent.disableMessageId
  disableTimestamp : got.disableTimestamp = sent.disableTimestamp
  correlationId : got.correlationId = sent.correlationId
  messageType : got.messageType = sent.messageType
  destination : got.destination = queue

/-- Both sides agree on the ID: the receiver assigns the one that the sender was given, or none. -/
theorem Conveys.received {n k : Nat} {body : Text} {queue : Value} {sent got : Message Value}
    {read : Message (Option Destination)} (h : Conveys (Script.sentId n) sent read)
    (hread : Codec.deserialize (.text body) = .ok read)
    (hgot : converted (Script.record n k body) queue = .ok got) :
    Faithful queue (Script.sentId n) (Script.receipt k) sent got := by
  obtain ⟨stored, entries, hstored, hentries, hkeyed, hsame, hdeclares⟩ := h.properties
  obtain ⟨handle, hhandle, rfl⟩ := converted_eq_ok rfl rfl hread hstored hgot
  cases hhandle
  refine ⟨?_, h.body, ⟨entries, hentries, ?_⟩, ?_, ?_, h.messageId, h.timestamp, h.disableMessageId,
    h.disableTimestamp, h.correlationId, h.messageType, rfl⟩
  · have hnone : read.diagnosis = none := h.diagnosis
    simp [Message.type, Message.mapDestination, hnone]
  · exact same_store hkeyed hsame receiptKey (same_text _)
  · simp [Message.receiptHandle, Message.property, lookup_store]
  · dsimp only
    rw [hdeclares, h.unidentified, h.messageId]
    rfl

namespace Action

variable {σ : Type} [Service σ]

/-- Writes a message in the state in which it is sent to a queue. -/
def drafted (queue x : Value) : Action σ Text := do
  let ref ← stamp x
  let _ ← resolveQueue queue
  let (_, m) ← message (.shared ref)
  serialize m

/-- Every one of some messages is written in the state in which it is sent. -/
def Accepted (queue : Value) : List Value → World σ → Prop
  | [], _ => True
  | x :: xs, w =>
    (∃ wire v, (drafted queue x).run w = .ok wire v) ∧
      ∀ v, (send queue x).run w = .ok () v → Accepted queue xs v

def accepts (queue : Value) : List Value → World σ → Bool
  | [], _ => true
  | x :: xs, w =>
    (match (drafted queue x).run w with
      | .ok _ _ => true
      | .error _ _ => false) &&
      match (send queue x).run w with
      | .ok _ v => accepts queue xs v
      | .error _ _ => true

theorem accepts_iff {queue : Value} {xs : List Value} {w : World σ} :
    accepts queue xs w = true ↔ Accepted queue xs w := by
  induction xs generalizing w with
  | nil => simp [accepts, Accepted]
  | cons x xs ih =>
    rw [accepts, Accepted, Bool.and_eq_true]
    refine and_congr ?_ ?_
    · cases (drafted queue x).run w <;> simp
    · cases (send queue x).run w with
      | ok _ v => simp [ih]
      | error f v => simp

instance (queue : Value) (xs : List Value) (w : World σ) : Decidable (Accepted queue xs w) :=
  decidable_of_iff _ accepts_iff

/-- Receives one by one from a queue, each time within another timeout. -/
def receiveEach (c : Connector) (queue : Value) : List Int → Action σ (List (Option Ref))
  | [] => pure []
  | timeout :: timeouts => do
    let got ← receive c queue timeout
    return got :: (← receiveEach c queue timeouts)

end Action

/-- Behind each body that waits, in order, stands a sent message of a store, which the body conveys. The numbers
under which they were sent follow `n`. -/
inductive Pending (s : Store) : Nat → List Ref → List (Nat × Text) → Prop
  | nil (n : Nat) : Pending s n [] []
  | cons {n : Nat} {ref : Ref} {refs : List Ref} {body : Text} {bodies : List (Nat × Text)}
      {sent : Message Value} {read : Message (Option Destination)} (hsent : s.object? ref = some (.message sent))
      (hread : Codec.deserialize (.text body) = .ok read) (hconveys : Conveys (Script.sentId (n + 1)) sent read)
      (hrest : Pending s (n + 1) refs bodies) : Pending s n (ref :: refs) ((n + 1, body) :: bodies)

namespace Ready

open MessageBus.Action

variable {queue : Ref} {w : World Script}

/-- A fresh message that can be written is sent: its body waits behind all others, and conveys it. -/
theorem send (h : Ready queue w) {ref : Ref} {m : Message Value} (hm : w.store.object? ref = some (.message m))
    (hfresh : m.Fresh) (hdraft : ∃ wire v, (drafted (.shared queue) (.shared ref)).run w = .ok wire v) :
    ∃ v sent body read, (Action.send (.shared queue) (.shared ref)).run w = .ok () v ∧ Ready queue v ∧
      v.service = { w.service with
        sent := w.service.sent + 1, waiting := w.service.waiting ++ [(w.service.sent + 1, body)] } ∧
      v.store.object? ref = some (.message sent) ∧ Codec.deserialize (.text body) = .ok read ∧
      Conveys (Script.sentId (w.service.sent + 1)) sent read := by
  obtain ⟨q, hq⟩ := h.queue
  obtain ⟨body, _, hbody⟩ := hdraft
  obtain ⟨ref', u, hstamp, hbody⟩ := run_bind_eq_ok.mp hbody
  obtain ⟨m', marked, hx, hm', hstamped, rfl⟩ := run_stamp_eq_ok.mp hstamp
  cases hx
  rw [hm, Option.some.injEq, Object.message.injEq] at hm'
  subst hm'
  have hput : (w.put ref (.message marked)).store.object? ref = some (.message marked) :=
    Store.object?_replace_self hm
  have hqueue : (w.put ref (.message marked)).store.object? queue = some (.queue q) := World.queue_put hq hm
  have hstart : Ready queue (w.put ref (.message marked)) := ⟨h.calm.put _ _, q, hqueue⟩
  obtain ⟨url, v, hresolve, hready, hservice, hkeeps⟩ := hstart.lookup
  have hmarked := hkeeps ref marked hput
  rw [run_bind_of_ok hresolve, run_bind_of_ok (run_message hmarked)] at hbody
  obtain ⟨hwire, _⟩ := run_serialize_eq_ok.mp hbody
  obtain ⟨read, hread, hconveys⟩ := hfresh.conveyed hstamped hwire (Script.sentId (w.service.sent + 1))
  rw [run_resolveQueue hqueue] at hresolve
  have hanswer := hready.calm.outcome (.sendMessage url body)
  have hafter := hready.calm.service_after (.sendMessage url body)
  rw [hservice, World.service_put] at hanswer hafter
  have hsend := (run_send_eq_ok hq).mpr
    ⟨ref, m, marked, url, v, body, _, _, rfl, hm, hstamped, hresolve, hwire, hanswer, ⟨rfl, fun _ => rfl⟩, rfl⟩
  refine ⟨_, _, body, read, hsend, ⟨?_, (send_frame hq hsend).1⟩, hafter, ?_, hread, hconveys⟩
  · exact ((hready.calm.after _).put _ _).note _ _ _
  · exact Store.object?_replace_self hmarked

/-- Fresh messages that can be written when it is their turn are sent, each once and in order. -/
theorem sendAll (h : Ready queue w) {refs : List Ref} (hdistinct : refs.Nodup)
    (hfresh : ∀ ref ∈ refs, ∃ m, w.store.object? ref = some (.message m) ∧ m.Fresh)
    (haccepted : Accepted (.shared queue) (refs.map .shared) w) :
    ∃ v bodies, (Action.sendAll (.shared queue) (refs.map .shared)).run w = .ok () v ∧ Ready queue v ∧
      v.service = { w.service with
        sent := w.service.sent + refs.length, waiting := w.service.waiting ++ bodies } ∧
      Pending v.store w.service.sent refs bodies := by
  induction refs generalizing w with
  | nil =>
    refine ⟨w, [], rfl, h, ?_, .nil _⟩
    simp
  | cons ref refs ih =>
    -- the first send leaves the other messages fresh, and the later ones leave the first as it was sent
    obtain ⟨q, hq⟩ := h.queue
    obtain ⟨m, hm, hm'⟩ := hfresh ref (by simp)
    obtain ⟨hdraft, hlater⟩ := haccepted
    obtain ⟨u, sent, body, read, hsend, hready, hservice, hsent, hread, hconveys⟩ := h.send hm hm' hdraft
    rw [List.nodup_cons] at hdistinct
    have hrest : ∀ other ∈ refs, ∃ m, u.store.object? other = some (.message m) ∧ m.Fresh := by
      intro other hmem
      obtain ⟨m₁, hm₁, hfresh₁⟩ := hfresh other (by simp [hmem])
      have hother : Value.shared ref ≠ .shared other := by
        rintro ⟨⟩
        exact hdistinct.1 hmem
      refine ⟨m₁, ?_, hfresh₁⟩
      rw [(send_frame hq hsend).2 other (Store.ne_of_message hq hm₁) hother, hm₁]
    obtain ⟨v, bodies, hrun, hready', hservice', hpending⟩ := ih hready hdistinct.2 hrest (hlater u hsend)
    obtain ⟨q', hq'⟩ := hready.queue
    have hkept : v.store.object? ref = some (.message sent) := by
      have hmem : Value.shared ref ∉ refs.map .shared := by
        simpa using hdistinct.1
      rw [(sendAll_frame hq' hrun).2 ref (Store.ne_of_message hq' hsent) hmem, hsent]
    rw [hservice] at hservice' hpending
    refine ⟨v, (w.service.sent + 1, body) :: bodies, ?_, hready', ?_, .cons hkept hread hconveys hpending⟩
    · rw [List.map_cons, Action.sendAll, run_bind_of_ok hsend, hrun]
    · rw [hservice', List.length_cons]
      simp only [List.append_assoc, List.singleton_append, Nat.add_assoc, Nat.add_comm 1]

/-- Receives take what waits in order, and make of each body the message behind it. -/
theorem receiveEach (h : Ready queue w) (c : Connector) {s : Store} {n : Nat} {refs : List Ref}
    {bodies : List (Nat × Text)} {timeouts : List Int} (hpending : Pending s n refs bodies)
    (hwaiting : w.service.waiting = bodies) (hkeeps : s.Keeps w.store)
    (hlength : timeouts.length = refs.length) :
    ∃ (gots : List Ref) (v : World Script),
      (Action.receiveEach c (.shared queue) timeouts).run w = .ok (gots.map some) v ∧
      gots.length = refs.length ∧ w.store.Keeps v.store ∧
      ∀ (i : Nat) (ref ref' : Ref), refs[i]? = some ref → gots[i]? = some ref' →
        ∃ sent got, s.object? ref = some (.message sent) ∧ v.store.object? ref' = some (.message got) ∧
          Faithful (.shared queue) (Script.sentId (n + i + 1)) (Script.receipt (w.service.delivered + i + 1))
            sent got := by
  induction hpending generalizing w timeouts with
  | nil n =>
    rw [List.length_nil, List.length_eq_zero_iff] at hlength
    subst hlength
    refine ⟨[], w, rfl, rfl, fun _ _ hm => hm, fun i ref ref' hi _ => ?_⟩
    simp at hi
  | @cons n ref refs body bodies sent read hsent hread hconveys hrest ih =>
    cases timeouts with
    | nil => simp at hlength
    | cons timeout timeouts =>
      -- the body of the first message waits at the head, and those of the others behind it with later numbers
      obtain ⟨ref', got, u, hreceive, hready, hservice, hkept, hgot, hconverted⟩ := h.receive c timeout hwaiting
      have hwaiting' : u.service.waiting = bodies := by rw [hservice]
      have hlength' : timeouts.length = refs.length := by simpa using hlength
      obtain ⟨gots, v, hrun, hgots, hlater, hfaithful⟩ := ih hready hwaiting' (hkeeps.trans hkept) hlength'
      refine ⟨ref' :: gots, v, ?_, ?_, hkept.trans hlater, fun i r r' hi hi' => ?_⟩
      · rw [Action.receiveEach, run_bind_of_ok hreceive, run_bind_of_ok hrun]
        rfl
      · rw [List.length_cons, List.length_cons, hgots]
      · cases i with
        | zero =>
          cases hi
          cases hi'
          exact ⟨sent, got, hsent, hlater ref' got hgot, hconveys.received hread hconverted⟩
        | succ i =>
          obtain ⟨sent', got', hsent', hgot', hsame⟩ := hfaithful i r r' hi hi'
          refine ⟨sent', got', hsent', hgot', ?_⟩
          rw [hservice] at hsame
          have hnumber : n + 1 + i + 1 = n + (i + 1) + 1 := by omega
          have hdelivery : w.service.delivered + 1 + i + 1 = w.service.delivered + (i + 1) + 1 := by omega
          rw [← hnumber, ← hdelivery]
          exact hsame

end Ready

namespace Action

/-- Sending and receiving through an empty queue is faithful. Whatever fresh messages are sent, as long as each
can be written when it is its turn, as many receives give as many messages, in the order in which they were
sent, and each is the message that was sent as it is after its send. -/
theorem delivered_in_order {queue : Ref} {refs : List Ref} {w : World Script} (hready : Ready queue w)
    (hempty : w.service.waiting = []) (hdistinct : refs.Nodup)
    (hfresh : ∀ ref ∈ refs, ∃ m, w.store.object? ref = some (.message m) ∧ m.Fresh)
    (haccepted : Accepted (.shared queue) (refs.map .shared) w) :
    ∃ w', (sendAll (.shared queue) (refs.map .shared)).run w = .ok () w' ∧
      ∀ (c : Connector) (timeouts : List Int), timeouts.length = refs.length →
        ∃ (gots : List Ref) (v : World Script),
          (receiveEach c (.shared queue) timeouts).run w' = .ok (gots.map some) v ∧ gots.length = refs.length ∧
          ∀ (i : Nat) (ref ref' : Ref), refs[i]? = some ref → gots[i]? = some ref' →
            ∃ u sent got, (sendAll (.shared queue) ((refs.take (i + 1)).map .shared)).run w = .ok () u ∧
              u.store.object? ref = some (.message sent) ∧ v.store.object? ref = some (.message sent) ∧
              v.store.object? ref' = some (.message got) ∧
              Faithful (.shared queue) (Script.sentId (w.service.sent + i + 1))
                (Script.receipt (w.service.delivered + i + 1)) sent got := by
  obtain ⟨q, hq⟩ := hready.queue
  obtain ⟨w', bodies, hsend, hready', hservice, hpending⟩ := hready.sendAll hdistinct hfresh haccepted
  have hwaiting : w'.service.waiting = bodies := by rw [hservice, hempty, List.nil_append]
  have hdelivered : w'.service.delivered = w.service.delivered := by rw [hservice]
  refine ⟨w', hsend, fun c timeouts hlength => ?_⟩
  obtain ⟨gots, v, hreceive, hgots, hkeeps, hfaithful⟩ :=
    hready'.receiveEach c hpending hwaiting (fun _ _ hm => hm) hlength
  refine ⟨gots, v, hreceive, hgots, fun i ref ref' hi hi' => ?_⟩
  obtain ⟨sent, got, hsent, hgot, hsame⟩ := hfaithful i ref ref' hi hi'
  obtain ⟨m, hm, _⟩ := hfresh ref (List.mem_of_getElem? hi)
  obtain ⟨u, hfirst, hleft⟩ := sendAll_take hq hdistinct hi (Store.ne_of_message hq hm) hsend
  rw [hdelivered] at hsame
  exact ⟨u, sent, got, hfirst, hleft ▸ hsent, hkeeps ref sent hsent, hgot, hsame⟩

def note (disableMessageId : Bool) : Message Value :=
  { kind := .text "message", body := .text "a", properties := .dict [], messageId := .null, timestamp := .null,
    disableMessageId := .bool disableMessageId, disableTimestamp := .bool false, correlationId := .null,
    messageType := .null, destination := .null, diagnosis := none }

theorem fresh_note (disableMessageId : Bool) : (note disableMessageId).Fresh := by
  refine ⟨⟨Value.ofFields [("body", .text "a"), ("disable_message_id", .bool disableMessageId)],
    (note disableMessageId).mapDestination fun _ => none, ?_, rfl⟩, rfl, rfl⟩
  cases disableMessageId <;> with_unfolding_all rfl

/-- A world with a queue that is not bound yet and two messages, of which the second wants no ID. -/
def posting : World Script :=
  { started := 0, elapsed := 0, timers := [], running := true, service := .empty,
    store := ⟨[.queue (.named "orders"), .message (note false), .message (note true)]⟩,
    serial := 0, patience := 0, trace := [] }

/-- Two messages are received, the first with the ID that its sender got and the second without one. -/
theorem two_delivered :
    ∃ w' ref₁ ref₂ v sent₁ got₁ sent₂ got₂,
      (sendAll (.shared 0) [.shared 1, .shared 2]).run posting = .ok () w' ∧
      (receiveEach ⟨.int 1000, .null⟩ (.shared 0) [0, 0]).run w' = .ok [some ref₁, some ref₂] v ∧
      v.store.object? ref₁ = some (.message got₁) ∧ Faithful (.shared 0) "m-1" "rh-1" sent₁ got₁ ∧
      v.store.object? ref₂ = some (.message got₂) ∧ Faithful (.shared 0) "m-2" "rh-2" sent₂ got₂ := by
  have hready : Ready 0 posting :=
    ⟨⟨by simp [Script.Spent, posting, Script.empty], rfl, by simp [posting]⟩, _, rfl⟩
  have hdistinct : ([1, 2] : List Ref).Nodup := by decide
  have hfresh : ∀ ref ∈ ([1, 2] : List Ref), ∃ m, posting.store.object? ref = some (.message m) ∧ m.Fresh := by
    intro ref hmem
    obtain rfl | rfl : ref = 1 ∨ ref = 2 := by simpa using hmem
    · exact ⟨note false, rfl, fresh_note false⟩
    · exact ⟨note true, rfl, fresh_note true⟩
  have haccepted : Accepted (.shared 0) [.shared 1, .shared 2] posting := by decide +kernel
  obtain ⟨w', hsend, hreceive⟩ := delivered_in_order hready rfl hdistinct hfresh haccepted
  obtain ⟨gots, v, hrun, hgots, hfaithful⟩ := hreceive ⟨.int 1000, .null⟩ [0, 0] rfl
  obtain ⟨ref₁, ref₂, rfl⟩ := List.length_eq_two.mp hgots
  obtain ⟨_, sent₁, got₁, _, _, _, hgot₁, hsame₁⟩ := hfaithful 0 1 ref₁ rfl rfl
  obtain ⟨_, sent₂, got₂, _, _, _, hgot₂, hsame₂⟩ := hfaithful 1 2 ref₂ rfl rfl
  exact ⟨w', ref₁, ref₂, v, sent₁, got₁, sent₂, got₂, hsend, hrun, hgot₁, hsame₁, hgot₂, hsame₂⟩

end Action

end MessageBus
