import MessageBus.Proofs.Expansion
import MessageBus.Proofs.SendFrame

/-!
# What goes on the wire is the sender's view

A send that succeeds hands one wire form over (`Action.Delivers`), and every receiver reads it as the message that
the sender is left with (`Reads`). There is one difference: a queue gives the message its ID when the wire form is on
its way, so the wire carries the ID from before. What the message is told by did not change in between, since an
object that can be written does not lie within itself.
-/

namespace MessageBus

def Request.wire? : Request → Option Text
  | .sendMessage _ body => some body
  | .publish _ message => some message
  | _ => none

def Call.carries (c : Call) : Bool := c.request.wire?.isSome

theorem Call.not_carries_of_isLookup {c : Call} (h : c.request.IsLookup) : c.carries = false := by
  obtain ⟨q, outcome⟩ := c
  cases q with
  | createQueue | createTopic => rfl
  | _ => cases h

theorem Object.wire?_carriage (handle : Value) (wire : Text) (o : Object) :
    (o.carriage handle wire).wire? = some wire := by
  cases o <;> rfl

namespace Action

variable {σ : Type}

/-- What handing over a stamped message does when it succeeds: behind the lookup, if there is one, it makes one call,
whose wire form is that of the message as it is left, but for the ID if it goes to a queue. -/
structure Delivers (o : Object) (ref : Ref) (m : Message Value) (w : World σ) (lookups : List Call) (handle : Value)
    (wire : Text) (answer : Value) (sent : Message Value) (v : World σ) : Prop where
  makes : Makes w (lookups ++ [⟨o.carriage handle wire, .ok answer⟩]) v
  lookups : ∀ c ∈ lookups, c.request.IsLookup
  message : v.store.object? ref = some (.message sent)
  queue : ∀ q, o = .queue q → Codec.serialize (m.map v.store.expanded) = .ok wire ∧ v.serial = w.serial ∧
    ∃ id, answer.item "MessageId" = .ok id ∧ sent = m.identified id.shown
  topic : ∀ t, o = .topic t → Codec.serialize (sent.map v.store.expanded) = .ok wire ∧
    sent = m.identified w.nextIdentifier ∧ v.serial = w.serial + if m.disableMessageId.truthy then 0 else 1

section steps

variable {ref : Ref} {o : Object} {m m' sent : Message Value} {w v u : World σ} {lookups : List Call}
  {handle answer : Value} {wire : Text}

theorem Delivers.behind {x : Object} (h : Delivers o ref m (w.put ref x) lookups handle wire answer sent v) :
    Delivers o ref m w lookups handle wire answer sent v :=
  ⟨(Makes.put w ref x).trans h.makes, h.lookups, h.message, h.queue, h.topic⟩

theorem Delivers.filter_carries (h : Delivers o ref m w lookups handle wire answer sent v) :
    List.filter Call.carries (lookups ++ [⟨o.carriage handle wire, .ok answer⟩]) =
      [⟨o.carriage handle wire, .ok answer⟩] := by
  have hlookups : lookups.filter Call.carries = [] :=
    List.filter_eq_nil_iff.mpr fun c hc => by simp [Call.not_carries_of_isLookup (h.lookups c hc)]
  have hlast : Call.carries ⟨o.carriage handle wire, .ok answer⟩ = true := by
    rw [Call.carries, o.wire?_carriage]
    rfl
  rw [List.filter_append, hlookups, List.nil_append, List.filter_cons_of_pos hlast, List.filter_nil]

theorem addressed_topic (t : Topic) (h : addressed (.topic t) ref m v = (m', u))
    (hm : v.store.object? ref = some (.message m)) :
    m' = m.identified v.nextIdentifier ∧ u.store.object? ref = some (.message m') ∧
      u.serial = v.serial + if m.disableMessageId.truthy then 0 else 1 := by
  rw [addressed] at h
  by_cases hd : m.disableMessageId.truthy = true
  · rw [if_pos hd] at h ⊢
    cases h
    exact ⟨by rw [Message.identified, if_pos hd], hm, rfl⟩
  · rw [if_neg hd] at h ⊢
    cases h
    exact ⟨rfl, Store.object?_replace_self (s := v.numbered.store) hm, rfl⟩

end steps

variable [Service σ]

theorem makes_posted {v : World σ} {url answer : Value} {wire : Text}
    (h : (v.reply (.sendMessage url wire)).outcome = .ok answer) (ref : Ref) (m : Message Value) (id : Value) :
    Makes v [⟨.sendMessage url wire, .ok answer⟩] (posted v url wire ref m id) := by
  have hafter := Makes.after v (.sendMessage url wire)
  rw [h] at hafter
  exact hafter.trans (.put_note ..)

theorem HandingEnds.delivers {d ref : Ref} {o : Object} {m : Message Value} {w w' : World σ}
    {r : EStateM.Result Fault (World σ) Unit} (h : HandingEnds d o ref m w r) (hr : r = .ok () w')
    (ho : w.store.object? d = some o) (hm : w.store.object? ref = some (.message m)) (hother : d ≠ ref) :
    ∃ lookups handle wire answer sent, Delivers o ref m w lookups handle wire answer sent w' := by
  cases h with
  | unfound | unwritten | refused | unnumbered | unnamed => cases hr
  | @posted q handle answer id v wire hq hl hwire hanswer hid htakes =>
    cases hr
    subst hq
    obtain ⟨lookups, hlooks, -⟩ := hl.looksUp ho
    have hv : v.store.object? ref = some (.message m) := (hl.frame hother).trans hm
    have hcall := makes_posted hanswer ref m id
    refine ⟨lookups, handle, wire, answer, m.identified id.shown, hlooks.makes.trans hcall, hlooks.lookups,
      Store.object?_replace_self hv, ?_, nofun⟩
    intro q' hq'
    -- the ID is assigned after the message was written
    have hkept : m.map (Action.posted v handle wire ref m id).store.expanded = m.map v.store.expanded :=
      Store.map_expanded_replace hv hwire _
    exact ⟨by rw [hkept, hwire], hlooks.serial, id, hid, rfl⟩
  | @published t handle answer v u m' wire line ht hl haddressed hwire hanswer =>
    cases hr
    subst ht
    obtain ⟨lookups, hlooks, -⟩ := hl.looksUp ho
    have hv : v.store.object? ref = some (.message m) := (hl.frame hother).trans hm
    have hkept : v.serial = w.serial := hlooks.serial
    obtain ⟨hnamed, hmessage, hserial⟩ := addressed_topic t haddressed hv
    have hcall : Makes u [⟨.publish handle wire, .ok answer⟩]
        ((u.after (.publish handle wire)).note .info .connector line) := by
      have hafter := Makes.after u (.publish handle wire)
      rw [hanswer] at hafter
      exact hafter.trans (.note ..)
    have hmade := (hlooks.makes.before (makes_addressed haddressed)).trans hcall
    refine ⟨lookups, handle, wire, answer, m', hmade, hlooks.lookups, hmessage, nofun, ?_⟩
    intro t' ht'
    refine ⟨hwire, ?_, ?_⟩
    · rw [hnamed, World.nextIdentifier_congr hkept]
    · rw [← hkept]
      exact hserial

/-- A send that succeeds goes to a destination, and hands over the stamped message. -/
theorem delivers_of_send {destination x : Value} {w w' : World σ} (h : (send destination x).run w = .ok () w') :
    ∃ d o h ref m stamped lookups handle wire answer sent, destination = .shared d ∧
      w.store.object? d = some o ∧ o.handle? = some h ∧ x = .shared ref ∧ w.store.object? ref = some (.message m) ∧
      m.stamped w.wallClock = .ok stamped ∧
      Delivers o ref stamped w lookups handle wire answer sent w' := by
  have hends := sendEnds destination x w
  rw [h] at hends
  cases hends with
  | @directed d ref o h m stamped _ hd ho hh hx hm hs hr =>
    obtain ⟨lookups, handle, wire, answer, sent, hdelivers⟩ := hr.delivers rfl (World.destination_put ho hh hm stamped)
      (Store.object?_replace_self hm) (Store.ne_of_handle ho hh hm)
    exact ⟨d, o, h, ref, m, stamped, lookups, handle, wire, answer, sent, hd, ho, hh, hx, hm, hs,
      hdelivers.behind⟩

end Action

/-- Whoever reads a wire form reads a message that equals one in a world, with the same ID and time. -/
structure Reads {σ : Type} (w : World σ) (m : Message Value) (wire : Text) : Prop where
  read : ∀ {τ : Type} (v : World τ), ∃ ref' v' got, (Action.deserialize (.text wire)).run v = .ok ref' v' ∧
    v'.store.object? ref' = some (.message got) ∧ got.diagnosis = none ∧
    (v'.store.dump got).same (w.store.dump m) = true ∧ got.messageId = m.messageId ∧
    ∀ n, m.timestamp = .int n → got.timestamp = .int n

theorem Codec.reads {σ : Type} {w : World σ} {m : Message Value} {wire : Text} (hm : m.diagnosis = none)
    (h : Codec.serialize (m.map w.store.expanded) = .ok wire) : Reads w m wire := by
  have hnone : (m.map w.store.expanded).diagnosis = none := by simp [Message.map, hm]
  obtain ⟨entries, read, hreads, hdiagnosis, hread, hsame⟩ := deserialize_of_serialize hnone h
  obtain ⟨read', hread', hcarries⟩ := carried hm h
  rw [hread] at hread'
  cases hread'
  constructor
  intro τ v
  have hsound : read.Sound := hreads.valid.sound hdiagnosis
  obtain ⟨x, hobject, htold⟩ := Store.told_addMessage hsound v.store
  refine ⟨_, _, _, Action.run_deserialize hread, hobject, hdiagnosis, ?_, hcarries.messageId, ?_⟩
  · rw [Store.dump, htold, hsound.data_toValue]
    exact hsame
  · intro n hn
    have htime := hcarries.timestamp
    rw [hn, Store.told_of_bare (Value.bare_int n)] at htime
    change read.timestamp = .int n
    rcases Check.optionalInteger_eq_ok hreads.timestamp with hnull | ⟨k, hk⟩
    · rw [hnull] at htime
      cases Value.eq_null_of_same htime
    · rw [hk] at htime ⊢
      rw [Value.eq_of_same_int htime]

namespace Action

/-- What the wire carries of a message that was sent, and what its sender is left with. -/
structure SenderView {σ : Type} (o : Object) (m : Message Value) (w : World σ) (wire : Text) (answer : Value)
    (sent : Message Value) (v : World σ) : Prop where
  timestamp : sent.timestamp = if m.disableTimestamp.truthy then m.timestamp else .int w.wallClock
  queue : ∀ q, o = .queue q → Reads v { sent with messageId := m.messageId } wire ∧
    ∃ id, answer.item "MessageId" = .ok id ∧
      sent.messageId = if m.disableMessageId.truthy then m.messageId else .text ("ID:" ++ id.shown)
  topic : ∀ t, o = .topic t → Reads v sent wire ∧
    sent.messageId = (if m.disableMessageId.truthy then m.messageId else .text ("ID:" ++ w.nextIdentifier)) ∧
    v.serial = w.serial + if m.disableMessageId.truthy then 0 else 1

/-- Nothing but the ID comes between the message that is handed over and the one that the sender has. -/
theorem Delivers.view {σ : Type} {ref : Ref} {o : Object} {m stamped sent : Message Value} {w v : World σ}
    {lookups : List Call} {h handle answer : Value} {wire : Text}
    (hdelivers : Delivers o ref stamped w lookups handle wire answer sent v) (hh : o.handle? = some h)
    (hs : m.stamped w.wallClock = .ok stamped) (hclass : m.diagnosis = none) : SenderView o m w wire answer sent v := by
  obtain ⟨marked, -, hparts⟩ := Message.stamped_eq_ok hs
  have hid : stamped.messageId = m.messageId := by rw [hparts]
  have hdisabled : stamped.disableMessageId = m.disableMessageId := by rw [hparts]
  have hnone : stamped.diagnosis = none := by rw [hparts]; exact hclass
  have htime : stamped.timestamp = if m.disableTimestamp.truthy then m.timestamp else .int w.wallClock := by
    rw [hparts]
    exact m.timestamp_dated w.wallClock
  have hgiven (id : Text) : (stamped.identified id).messageId =
      if m.disableMessageId.truthy then m.messageId else .text ("ID:" ++ id) := by
    rw [Message.messageId_identified, hdisabled, hid]
  have hsent (id : Text) : (stamped.identified id).timestamp = stamped.timestamp ∧
      { stamped.identified id with messageId := m.messageId } = stamped ∧ (stamped.identified id).diagnosis = none := by
    rw [stamped.identified_eq id, ← hid]
    exact ⟨rfl, rfl, hnone⟩
  cases o with
  | message _ => cases hh
  | queue q =>
    obtain ⟨hwire, -, id, hanswer, rfl⟩ := hdelivers.queue q rfl
    obtain ⟨hkept, hback, -⟩ := hsent id.shown
    refine ⟨hkept.trans htime, fun _ _ => ?_, fun _ htopic => (by cases htopic)⟩
    rw [hback]
    exact ⟨Codec.reads hnone hwire, id, hanswer, hgiven id.shown⟩
  | topic t =>
    obtain ⟨hwire, rfl, hserial⟩ := hdelivers.topic t rfl
    obtain ⟨hkept, -, hnone'⟩ := hsent w.nextIdentifier
    refine ⟨hkept.trans htime, fun _ hqueue => (by cases hqueue), fun _ _ => ?_⟩
    rw [hdisabled] at hserial
    exact ⟨Codec.reads hnone' hwire, hgiven _, hserial⟩

/-- A send that succeeds hands one wire form over. It is read as the message that the sender has after the send, but
for the ID that a queue gives. -/
theorem sent_as_seen {σ : Type} [Service σ] {d ref : Ref} {o : Object} {m : Message Value} {w w' : World σ}
    (ho : w.store.object? d = some o) (hm : w.store.object? ref = some (.message m)) (hclass : m.diagnosis = none)
    (hsend : (send (.shared d) (.shared ref)).run w = .ok () w') :
    ∃ handle wire answer sent,
      ((Operation.send (.shared d) (.shared ref)).made w).filter Call.carries =
        [⟨o.carriage handle wire, .ok answer⟩] ∧
      w'.store.object? ref = some (.message sent) ∧ SenderView o m w wire answer sent w' := by
  obtain ⟨_, _, h, _, _, stamped, lookups, handle, wire, answer, sent, hd', ho', hh, hx', hm', hs, hdelivers⟩ :=
    delivers_of_send hsend
  cases hd'
  cases hx'
  rw [ho] at ho'
  cases ho'
  rw [hm] at hm'
  cases hm'
  have hmade : (Operation.send (.shared d) (.shared ref)).made w =
      lookups ++ [⟨o.carriage handle wire, .ok answer⟩] := by
    refine Operation.made_eq ?_
    rw [Operation.after, Operation.action, hsend]
    exact hdelivers.makes
  exact ⟨handle, wire, answer, sent, by rw [hmade, hdelivers.filter_carries], hdelivers.message,
    hdelivers.view hh hs hclass⟩

def resent : Message Value :=
  { kind := .text "message", body := .text "a", properties := .dict [], messageId := .text "ID:m-0", timestamp := .null,
    disableMessageId := .bool false, disableTimestamp := .bool false, correlationId := .null, messageType := .null,
    destination := .shared 0, diagnosis := none }

/-- A world with a bound queue and that message. -/
def resending : World Script :=
  { started := 7, elapsed := 0, timers := [], running := true, service := ⟨[], 0, [], 0⟩,
    store := ⟨[.queue ⟨.text "queue", .text "orders", .text "https://sqs/orders"⟩, .message resent]⟩,
    serial := 0, patience := 0, trace := [] }

/-- The earlier ID is on the wire, and the new one in the message. -/
theorem resent_as_seen :
    ∃ w' wire sent, (send (.shared 0) (.shared 1)).run resending = .ok () w' ∧
      w'.store.object? 1 = some (.message sent) ∧ sent.messageId = .text "ID:m-1" ∧ sent.timestamp = .int 7 ∧
      Reads w' { sent with messageId := .text "ID:m-0" } wire := by
  have hwritten : (Codec.serialize ({ resent with timestamp := .int 7 }.map (resending.put 1
      (.message { resent with timestamp := .int 7 })).store.expanded)).toOption.isSome = true := by
    decide +kernel
  cases hwire : Codec.serialize ({ resent with timestamp := .int 7 }.map (resending.put 1
      (.message { resent with timestamp := .int 7 })).store.expanded) with
  | error e =>
    rw [hwire] at hwritten
    cases hwritten
  | ok wire =>
    have hqueue : resending.store.object? 0 =
        some (.queue ⟨.text "queue", .text "orders", .text "https://sqs/orders"⟩) := rfl
    have hsend : (send (.shared 0) (.shared 1)).run resending =
        .ok () (posted (resending.put 1 (.message { resent with timestamp := .int 7 })) (.text "https://sqs/orders")
          wire 1 { resent with timestamp := .int 7 } (.text "m-1")) := by
      refine (run_send_eq_ok hqueue).mpr ⟨1, resent, { resent with timestamp := .int 7 }, .text "https://sqs/orders",
        resending.put 1 (.message { resent with timestamp := .int 7 }), wire, _, .text "m-1", rfl, rfl, ?_, ?_, hwire,
        rfl, ⟨?_, fun _ => Value.tellable_text _⟩, rfl⟩
      · with_unfolding_all rfl
      · with_unfolding_all rfl
      · with_unfolding_all rfl
    obtain ⟨handle, wire', answer, sent, -, hsent, hview⟩ := sent_as_seen (m := resent) hqueue rfl rfl hsend
    refine ⟨_, wire', sent, hsend, hsent, ?_, ?_, (hview.queue _ rfl).1⟩
    · cases hsent
      rfl
    · cases hsent
      rfl

end Action

end MessageBus
