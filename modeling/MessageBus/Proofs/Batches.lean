import MessageBus.Proofs.Failures
import MessageBus.Proofs.SenderView
import MessageBus.Proofs.WrittenOnce

/-!
# Batches

A batch is sent message by message, up to the first send that fails. Each send that succeeds has one wire form
accepted (`Action.Sent`), and a send that fails has none, as long as what the services answer is in order. So a batch
that fails is the batch of the messages before the one that failed, and that one (`Action.Batch`).
-/

namespace MessageBus

namespace Call

/-- The wire form that the service accepted with a call. -/
def accepted? (c : Call) : Option Text := if c.outcome.isOk then c.request.wire? else none

/-- If the call was answered, the answer is in order. -/
def Answered (c : Call) : Prop := ∀ answer, c.outcome = .ok answer → c.request.Answered answer

theorem Regular.answered {c : Call} (h : c.Regular) : c.Answered := by
  intro answer ho
  rw [Regular, ho] at h
  exact h

theorem Answered.sound {c : Call} (h : c.Answered) : c.Sound := by
  intro key answer hkey ho
  have hanswer := h answer ho
  obtain ⟨q, outcome⟩ := c
  cases q with
  | createQueue name =>
    cases hkey
    exact hanswer
  | createTopic name =>
    cases hkey
    exact hanswer
  | _ => cases hkey

theorem accepted?_of_isLookup {c : Call} (h : c.request.IsLookup) : c.accepted? = none := by
  have hcarries := not_carries_of_isLookup h
  rw [carries, Option.isSome_eq_false_iff, Option.isNone_iff_eq_none] at hcarries
  rw [accepted?, hcarries, ite_self]

end Call

namespace World

variable {σ : Type}

/-- The wire forms that the services accepted so far. -/
def accepted (w : World σ) : List Text := w.made.filterMap Call.accepted?

end World

theorem Makes.accepted {σ : Type} {w v : World σ} {cs : List Call} (h : Makes w cs v) :
    v.accepted = w.accepted ++ cs.filterMap Call.accepted? := by
  rw [World.accepted, h.made, List.filterMap_append, World.accepted]

/-- Calls none of which has anything accepted. -/
theorem Makes.accepted_eq {σ : Type} {w v : World σ} {cs : List Call} (h : Makes w cs v)
    (hcs : ∀ c ∈ cs, c.accepted? = none) : v.accepted = w.accepted := by
  rw [h.accepted, List.filterMap_eq_nil_iff.mpr hcs, List.append_nil]

theorem Makes.accepted_of_nil {σ : Type} {w v : World σ} (h : Makes w [] v) : v.accepted = w.accepted :=
  h.accepted_eq (List.forall_mem_nil _)

namespace Action

variable {σ : Type} [Service σ] {destination x : Value} {w v u : World σ} {f : Fault}

/-- A send that succeeds: one wire form is accepted, that of the message as it is after the send, but for the ID. -/
structure Sent (destination x : Value) (w : World σ) (wire : Text) (v : World σ) : Prop where
  run : (send destination x).run w = .ok () v
  accepted : v.accepted = w.accepted ++ [wire]
  written : ∃ ref sent id, x = .shared ref ∧ v.store.object? ref = some (.message sent) ∧
    Codec.serialize ({ sent with messageId := id }.map v.store.expanded) = .ok wire

theorem sent_of_run (h : (send destination x).run w = .ok () v) : ∃ wire, Sent destination x w wire v := by
  obtain ⟨d, o, _, ref, m, stamped, lookups, handle, wire, answer, sent, hd, ho, hh, hx, hm, hs, hdelivers⟩ :=
    delivers_of_send h
  have haccepted : v.accepted = w.accepted ++ [wire] := by
    have hlookups : lookups.filterMap Call.accepted? = [] :=
      List.filterMap_eq_nil_iff.mpr fun c hc => Call.accepted?_of_isLookup (hdelivers.lookups c hc)
    have hlast : Call.accepted? ⟨o.carriage handle wire, .ok answer⟩ = some wire := o.wire?_carriage handle wire
    rw [hdelivers.makes.accepted, List.filterMap_append, hlookups, List.nil_append, List.filterMap_cons_some hlast,
      List.filterMap_nil]
  have hwritten : ∃ id, Codec.serialize ({ sent with messageId := id }.map v.store.expanded) = .ok wire := by
    cases o with
    | message _ => cases hh
    | queue q =>
      obtain ⟨hwire, -, id, -, rfl⟩ := hdelivers.queue q rfl
      refine ⟨stamped.messageId, ?_⟩
      rw [stamped.identified_eq]
      exact hwire
    | topic t => exact ⟨sent.messageId, (hdelivers.topic t rfl).1⟩
  obtain ⟨id, hwire⟩ := hwritten
  exact ⟨wire, h, haccepted, ref, sent, id, hx, hdelivers.message, hwire⟩

/-- Handing over that fails has nothing accepted, as long as the answers are in order. -/
theorem HandingEnds.accepts_none {d ref : Ref} {o : Object} {m : Message Value}
    {r : EStateM.Result Fault (World σ) Unit} (h : HandingEnds d o ref m w r) (hr : r = .error f v)
    (ho : w.store.object? d = some o) :
    ∃ cs, Makes w cs v ∧ ((∀ c ∈ cs, c.Answered) → ∀ c ∈ cs, c.accepted? = none) := by
  have hlookups {r : EStateM.Result Fault (World σ) Value} (hl : LookupEnds d o w r) :
      ∃ cs, Makes w cs (left r) ∧ ∀ c ∈ cs, c.accepted? = none := by
    obtain ⟨cs, hlooks, -⟩ := hl.looksUp ho
    exact ⟨cs, hlooks.makes, fun c hc => Call.accepted?_of_isLookup (hlooks.lookups c hc)⟩
  cases h with
  | posted | published => cases hr
  | unfound hl =>
    cases hr
    obtain ⟨cs, hmakes, hnone⟩ := hlookups hl
    exact ⟨cs, hmakes, fun _ => hnone⟩
  | @unwritten handle v u m' e hl haddressed hwire =>
    cases hr
    obtain ⟨cs, hmakes, hnone⟩ := hlookups hl
    exact ⟨cs, (hmakes.before (makes_addressed haddressed)).before (.log u .error .codec e.message), fun _ => hnone⟩
  | refused hl haddressed hwire hrequest =>
    cases hr
    obtain ⟨cs, hmakes, hnone⟩ := hlookups hl
    refine ⟨_, (hmakes.before (makes_addressed haddressed)).trans hrequest.makes, fun _ c hc => ?_⟩
    rcases List.mem_append.mp hc with hc | hc
    · exact hnone c hc
    · rw [List.mem_singleton.mp hc]
      cases hrequest with
      | failed ho he | untold ho he =>
        rw [ho]
        rfl
  | unnumbered hq hl hwire hanswer hid =>
    cases hr
    obtain ⟨cs, hmakes, -⟩ := hlookups hl
    refine ⟨_, hmakes.trans (.after _ _), fun hanswered => ?_⟩
    -- an answer in order has an ID
    obtain ⟨t, ht⟩ := hanswered _ (List.mem_append_right _ List.mem_cons_self) _ hanswer
    rw [hid] at ht
    cases ht
  | unnamed hq hl hwire hanswer hid hwords =>
    cases hr
    obtain ⟨cs, hmakes, -⟩ := hlookups hl
    refine ⟨_, hmakes.trans (.after _ _), fun hanswered => ?_⟩
    obtain ⟨t, ht⟩ := hanswered _ (List.mem_append_right _ List.mem_cons_self) _ hanswer
    rw [hid] at ht
    cases ht
    cases hwords

/-- A send that fails has nothing accepted, as long as the answers are in order. -/
theorem accepted_of_failed (h : (send destination x).run w = .error f v)
    (hanswered : ∀ c ∈ (Operation.send destination x).made w, c.Answered) : v.accepted = w.accepted := by
  have hafter : (Operation.send destination x).after w = v := by rw [Operation.after, Operation.action, h, left]
  have hnone : ∃ cs, Makes w cs v ∧ ((∀ c ∈ cs, c.Answered) → ∀ c ∈ cs, c.accepted? = none) := by
    have hends := sendEnds destination x w
    rw [h] at hends
    cases hends with
    | nowhere | unstamped => exact ⟨[], .refl w, fun _ => by simp⟩
    | misdirected => exact ⟨[], .put .., fun _ => by simp⟩
    | directed _ ho hh _ hm _ hr =>
      obtain ⟨cs, hmakes, hnone⟩ := hr.accepts_none rfl (World.destination_put ho hh hm _)
      exact ⟨cs, (Makes.put w _ _).trans hmakes, hnone⟩
  obtain ⟨cs, hmakes, hnone⟩ := hnone
  have hmade : (Operation.send destination x).made w = cs := Operation.made_eq (hafter ▸ hmakes)
  rw [hmade] at hanswered
  exact hmakes.accepted_eq (hnone hanswered)

theorem stays_without_handle (x : Value) (hd : ∀ d h, destination = .shared d → w.handle? d ≠ some h) :
    ∃ f v, (send destination x).run w = .error f v ∧ Makes w [] v := by
  have hends := sendEnds destination x w
  generalize (send destination x).run w = r at hends
  cases hends with
  | nowhere | unstamped => exact ⟨_, _, rfl, .refl w⟩
  | misdirected => exact ⟨_, _, rfl, .put ..⟩
  | @directed d _ o h _ _ _ hdest ho hh =>
    exact absurd (by rw [World.handle?_of_object ho, hh]) (hd d h hdest)

theorem message_of_send (destination : Value) {ref : Ref} {m : Message Value}
    (hm : w.store.object? ref = some (.message m)) (hx : x ≠ .shared ref) :
    (left ((send destination x).run w)).store.object? ref = some (.message m) := by
  have hhandle : ∀ h, destination = .shared ref → w.handle? ref ≠ some h := by
    intro h _ hw
    rw [World.handle?_of_object hm] at hw
    cases hw
  rw [(sendEnds destination x w).others hx hhandle, hm]

/-! ## Message by message -/

/-- Sends that succeed one after the other, with their wire forms. -/
inductive Sends (destination : Value) : World σ → List Value → List Text → World σ → Prop where
  | nil (w : World σ) : Sends destination w [] [] w
  | cons {w v u : World σ} {x : Value} {xs : List Value} {wire : Text} {wires : List Text}
      (first : Sent destination x w wire v) (rest : Sends destination v xs wires u) :
      Sends destination w (x :: xs) (wire :: wires) u

namespace Sends

variable {xs : List Value} {wires : List Text}

theorem run (h : Sends destination w xs wires v) : (sendAll destination xs).run w = .ok () v := by
  induction h with
  | nil w => rfl
  | cons first _ ih => rw [sendAll, run_bind_of_ok first.run, ih]

theorem accepted (h : Sends destination w xs wires v) : v.accepted = w.accepted ++ wires := by
  induction h with
  | nil w => rw [List.append_nil]
  | cons first _ ih => rw [ih, first.accepted, List.append_assoc, List.singleton_append]

theorem message (h : Sends destination w xs wires v) {ref : Ref} {m : Message Value}
    (hm : w.store.object? ref = some (.message m)) (hxs : .shared ref ∉ xs) :
    v.store.object? ref = some (.message m) := by
  induction h with
  | nil w => exact hm
  | cons first _ ih =>
    rw [List.mem_cons, not_or] at hxs
    have hkept := message_of_send destination hm (Ne.symm hxs.1)
    rw [first.run] at hkept
    exact ih hkept hxs.2

end Sends

/-- A batch is the sends of its messages, up to the first that fails. -/
theorem sendAll_ends (destination : Value) (xs : List Value) (w : World σ) :
    (∃ wires v, Sends destination w xs wires v) ∨
      ∃ before x after wires u f v, xs = before ++ x :: after ∧ Sends destination w before wires u ∧
        (send destination x).run u = .error f v ∧ (sendAll destination xs).run w = .error f v := by
  induction xs generalizing w with
  | nil => exact .inl ⟨[], w, .nil w⟩
  | cons x xs ih =>
    cases hrun : (send destination x).run w with
    | error f v =>
      refine .inr ⟨[], x, xs, [], w, f, v, rfl, .nil w, hrun, ?_⟩
      rw [sendAll, run_bind_of_error hrun]
    | ok _ v =>
      obtain ⟨wire, hsent⟩ := sent_of_run hrun
      rcases ih v with ⟨wires, u, hsends⟩ | ⟨before, y, after, wires, u, f, u', rfl, hsends, hfails, hall⟩
      · exact .inl ⟨wire :: wires, u, .cons hsent hsends⟩
      · refine .inr ⟨x :: before, y, after, wire :: wires, u, f, u', rfl, .cons hsent hsends, hfails, ?_⟩
        rw [sendAll, run_bind_of_ok hrun, hall]

/-- Sends that succeed and one that fails are a batch that fails, whatever comes behind them. -/
theorem Sends.run_append {before : List Value} {wires : List Text} (h : Sends destination w before wires u)
    (hx : (send destination x).run u = .error f v) (after : List Value) :
    (sendAll destination (before ++ x :: after)).run w = .error f v := by
  rw [sendAll_append, run_bind_of_ok h.run, sendAll, run_bind_of_error hx]

theorem sendAll_eq_ok {xs : List Value} :
    (sendAll destination xs).run w = .ok () v ↔ ∃ wires, Sends destination w xs wires v := by
  refine ⟨fun hrun => ?_, fun ⟨_, hsends⟩ => hsends.run⟩
  rcases sendAll_ends destination xs w with ⟨wires, u, hsends⟩ | ⟨_, _, _, _, _, f, u, -, -, -, hall⟩
  · rw [hsends.run] at hrun
    cases hrun
    exact ⟨wires, hsends⟩
  · rw [hall] at hrun
    cases hrun

theorem sendAll_eq_error {xs : List Value} :
    (sendAll destination xs).run w = .error f v ↔ ∃ before x after wires u, xs = before ++ x :: after ∧
      Sends destination w before wires u ∧ (send destination x).run u = .error f v := by
  constructor
  · intro hrun
    rcases sendAll_ends destination xs w with
      ⟨wires, u, hsends⟩ | ⟨before, x, after, wires, u, f', u', hxs, hsends, hfails, hall⟩
    · rw [hsends.run] at hrun
      cases hrun
    · rw [hall] at hrun
      cases hrun
      exact ⟨before, x, after, wires, u, hxs, hsends, hfails⟩
  · rintro ⟨before, x, after, wires, u, rfl, hsends, hfails⟩
    exact hsends.run_append hfails after

/-- The calls of a batch that fails are those of the sends that succeeded, and those of the one that failed. -/
theorem Sends.made_append {before : List Value} {wires : List Text} (h : Sends destination w before wires u)
    (hx : (send destination x).run u = .error f v) (after : List Value) :
    (Operation.sendAll destination (before ++ x :: after)).made w =
      (Operation.sendAll destination before).made w ++ (Operation.send destination x).made u := by
  have hbefore := ((Operation.sendAll destination before).serves w).makes
  have hlast := ((Operation.send destination x).serves u).makes
  have hu : (Operation.sendAll destination before).after w = u := by
    rw [Operation.after, Operation.action, h.run, left]
  have hv : (Operation.sendAll destination (before ++ x :: after)).after w =
      (Operation.send destination x).after u := by
    rw [Operation.after, Operation.action, h.run_append hx, Operation.after, Operation.action, hx, left]
  rw [hu] at hbefore
  refine Operation.made_eq ?_
  rw [hv]
  exact hbefore.trans hlast

/-- At most one lookup of a batch succeeds. -/
theorem finds_sendAll_le_one (destination : Value) (xs : List Value) (w : World σ)
    (hsound : ∀ c ∈ (Operation.sendAll destination xs).made w, c.Sound) :
    (((Operation.sendAll destination xs).made w).filter Call.finds).length ≤ 1 := by
  by_cases hd : ∃ d h, destination = .shared d ∧ w.handle? d = some h
  · obtain ⟨d, h, rfl, hh⟩ := hd
    obtain ⟨_, _, hcourse⟩ := ((Operation.sendAll (.shared d) xs).serves w).own d h rfl hh hsound
    exact hcourse.finds_le_one
  · have hnone : (Operation.sendAll destination xs).made w = [] := by
      refine Operation.made_eq ?_
      rw [Operation.after, Operation.action]
      cases xs with
      | nil => exact .refl w
      | cons x xs =>
        obtain ⟨f, v, hrun, hmakes⟩ := stays_without_handle x fun d h hdest hh => hd ⟨d, h, hdest, hh⟩
        rw [sendAll, run_bind_of_error hrun]
        exact hmakes
    rw [hnone]
    exact Nat.zero_le 1

/-- What becomes of a batch. -/
structure Batch (destination : Value) (xs : List Value) (w : World σ) : Prop where
  completed : ∀ v, (sendAll destination xs).run w = .ok () v ↔ ∃ wires, Sends destination w xs wires v
  failed : ∀ f v, (sendAll destination xs).run w = .error f v ↔ ∃ before x after wires u,
    xs = before ++ x :: after ∧ Sends destination w before wires u ∧ (send destination x).run u = .error f v
  /-- All that is sent, called and changed is that of the messages up to the one that failed. -/
  cut : ∀ before x after wires u f v, xs = before ++ x :: after → Sends destination w before wires u →
    (send destination x).run u = .error f v → v.accepted = w.accepted ++ wires ∧
      (Operation.sendAll destination xs).made w =
        (Operation.sendAll destination before).made w ++ (Operation.send destination x).made u ∧
      (sendAll destination (before ++ [x])).run w = .error f v ∧
      ∀ ref m, w.store.object? ref = some (.message m) → .shared ref ∉ before ++ [x] →
        v.store.object? ref = some (.message m)
  found : (((Operation.sendAll destination xs).made w).filter Call.finds).length ≤ 1

/-- A batch is its messages sent one by one, up to the first that fails. Nothing is assumed of the services but that
their answers are in order. -/
theorem sendAll_is_batch (destination : Value) (xs : List Value) (w : World σ)
    (hanswered : ∀ c ∈ (Operation.sendAll destination xs).made w, c.Answered) : Batch destination xs w where
  completed _ := sendAll_eq_ok
  failed _ _ := sendAll_eq_error
  cut := by
    rintro before x after wires u f v rfl hsends hfails
    have hmade := hsends.made_append hfails after
    refine ⟨?_, hmade, hsends.run_append hfails [], ?_⟩
    · rw [accepted_of_failed hfails fun c hc => hanswered c (hmade ▸ List.mem_append_right _ hc), hsends.accepted]
    · intro ref m hm hmem
      rw [List.mem_append, not_or, List.mem_singleton] at hmem
      have hkept := message_of_send destination (hsends.message hm hmem.1) (Ne.symm hmem.2)
      rwa [hfails] at hkept
  found := finds_sendAll_le_one destination xs w fun c hc => (hanswered c hc).sound

def bearing (body : Value) : Message Value :=
  { kind := .text "message", body := body, properties := .dict [], messageId := .null, timestamp := .null,
    disableMessageId := .bool false, disableTimestamp := .bool true, correlationId := .null, messageType := .null,
    destination := .null, diagnosis := none }

/-- A world with a bound queue and three messages, the second of which cannot be written. -/
def faltering : World Script :=
  { started := 0, elapsed := 0, timers := [], running := true, service := ⟨[], 0, [], 0⟩,
    store := ⟨[.queue ⟨.text "queue", .text "orders", .text "https://sqs/orders"⟩, .message (bearing (.text "a")),
      .message (bearing .object), .message (bearing (.text "b"))]⟩,
    serial := 0, patience := 0, trace := [] }

theorem send_unwritable {u : World Script}
    (hu : u.store = ⟨[.queue ⟨.text "queue", .text "orders", .text "https://sqs/orders"⟩,
      .message { bearing (.text "a") with messageId := .text "ID:m-1" }, .message (bearing .object),
      .message (bearing (.text "b"))]⟩) :
    ∃ e, (send (.shared 0) (.shared 2)).run u =
      .error (.bus e) ((u.put 2 (.message (bearing .object))).record (.log .error .codec e.message)) := by
  refine ⟨Codec.writeError .message (.unserializable Json.Unwritable.object.reason), ?_⟩
  obtain ⟨started, elapsed, timers, running, service, store, serial, patience, trace⟩ := u
  cases hu
  with_unfolding_all rfl

/-- The first message is accepted, and the third is left as it was. -/
theorem faltering_batch :
    ∃ wire f v, (sendAll (.shared 0) [.shared 1, .shared 2, .shared 3]).run faltering = .error f v ∧
      v.accepted = [wire] ∧ v.store.object? 3 = some (.message (bearing (.text "b"))) := by
  have hwritten : (Codec.serialize ((bearing (.text "a")).map
      (faltering.put 1 (.message (bearing (.text "a")))).store.expanded)).toOption.isSome = true := by
    decide +kernel
  cases hwire : Codec.serialize ((bearing (.text "a")).map
      (faltering.put 1 (.message (bearing (.text "a")))).store.expanded) with
  | error e =>
    rw [hwire] at hwritten
    cases hwritten
  | ok wire =>
    have hqueue : faltering.store.object? 0 =
        some (.queue ⟨.text "queue", .text "orders", .text "https://sqs/orders"⟩) := rfl
    have hanswer : ((faltering.put 1 (.message (bearing (.text "a")))).reply
        (.sendMessage (.text "https://sqs/orders") wire)).outcome =
          .ok (Value.ofFields [("MessageId", .text "m-1")]) := by
      with_unfolding_all rfl
    have hsend : (send (.shared 0) (.shared 1)).run faltering =
        .ok () (posted (faltering.put 1 (.message (bearing (.text "a")))) (.text "https://sqs/orders") wire 1
          (bearing (.text "a")) (.text "m-1")) :=
      (run_send_eq_ok hqueue).mpr ⟨1, _, bearing (.text "a"), .text "https://sqs/orders", _, wire, _, .text "m-1", rfl,
        rfl, rfl, rfl, hwire, hanswer, ⟨rfl, fun _ => Value.tellable_text _⟩, rfl⟩
    obtain ⟨e, hrefused⟩ := send_unwritable (u := posted (faltering.put 1 (.message (bearing (.text "a"))))
      (.text "https://sqs/orders") wire 1 (bearing (.text "a")) (.text "m-1")) rfl
    obtain ⟨wire', hsent⟩ := sent_of_run hsend
    have hsends : Sends (.shared 0) faltering [.shared 1] [wire'] _ := .cons hsent (.nil _)
    have hstopped (u : World Script) (line : Text) :
        Makes u [] ((u.put 2 (.message (bearing .object))).record (.log .error .codec line)) :=
      (Makes.put ..).before (.log ..)
    have hmade : (Operation.sendAll (.shared 0) [.shared 1, .shared 2, .shared 3]).made faltering =
        [⟨.sendMessage (.text "https://sqs/orders") wire, .ok (Value.ofFields [("MessageId", .text "m-1")])⟩] := by
      refine Operation.made_eq ?_
      have hrun := hsends.run_append hrefused [.shared 3]
      rw [List.singleton_append] at hrun
      rw [Operation.after, Operation.action, hrun, left]
      have hposted := (Makes.put faltering 1 _).trans (makes_posted hanswer 1 (bearing (.text "a")) (.text "m-1"))
      exact hposted.before (hstopped _ e.message)
    have hbatch := sendAll_is_batch (.shared 0) [.shared 1, .shared 2, .shared 3] faltering (by
      rw [hmade]
      intro c hc answer ho
      rw [List.mem_singleton.mp hc] at ho ⊢
      cases ho
      exact ⟨"m-1", rfl⟩)
    obtain ⟨haccepted, -, -, hkept⟩ := hbatch.cut [.shared 1] (.shared 2) [.shared 3] _ _ _ _ rfl hsends hrefused
    exact ⟨wire', _, _, hsends.run_append hrefused [.shared 3], haccepted, hkept 3 _ rfl (by simp)⟩

end Action

end MessageBus
