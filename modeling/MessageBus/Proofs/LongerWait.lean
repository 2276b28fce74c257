import Mathlib.Data.List.Infix
import MessageBus.Proofs.Receiving
import MessageBus.Script

/-!
# Waiting longer

A receive that may wait longer does all that it would do with the shorter timeout, and goes on only where the
shorter one gives up (`longer_wait_adds`). The two runs make the same rounds and sleeps in the same worlds until
the shorter timeout is up: as long as it is not, the longer one is not either (`Due.of_outlasts`), and nothing
else of a run depends on the timeout.
-/

namespace MessageBus.Action

/-- A timeout is not up before another one is: it is longer, or it is negative and never up. -/
def Outlasts (longer timeout : Int) : Prop := timeout ≤ longer ∨ longer < 0

variable {σ : Type}

/-- A run goes on where another one gives up. It ends in the same way and in the same world, unless the other
one ends without a result; then it begins with all that the other one does. -/
def GoesOn {α : Type} (r r' : EStateM.Result Fault (World σ) (Option α)) : Prop :=
  match r with
  | .ok none v => v.trace <+: (left r').trace
  | .ok (some a) v => r' = .ok (some a) v
  | .error f v => r' = .error f v

theorem Due.of_outlasts {longer timeout : Int} {start : Rat} {w : World σ} (hnonneg : 0 ≤ timeout)
    (h : Outlasts longer timeout) (hd : Due longer start w) : Due timeout start w := by
  obtain ⟨hlonger, hup⟩ := hd
  have hle : timeout ≤ longer := h.resolve_right (Int.not_lt.mpr hlonger)
  exact ⟨hnonneg, Rat.le_trans (Rat.intCast_le_intCast.mpr hle) hup⟩

variable [Service σ] {c : Connector} {queue url : Value} {timeout longer : Int} {start : Rat}

theorem awaiting_grows (c : Connector) (queue url : Value) (timeout : Int) (start : Rat) (w : World σ) :
    w.trace <+: (left ((awaiting c queue url timeout start).run w)).trace := by
  obtain ⟨es, hcourse⟩ := awaits c queue url timeout start w
  exact ⟨es, hcourse.trace.symm⟩

theorem unanswered_grows (c : Connector) (queue url : Value) (timeout : Int) (start : Rat) (w : World σ) :
    w.trace <+: (left ((unanswered c queue url timeout start).run w)).trace := by
  by_cases hd : Due timeout start w
  · rw [run_unanswered_of_due hd]
    exact List.prefix_refl _
  · rw [run_unanswered_of_not_due hd]
    cases hs : (sleep c.interval).run w with
    | error f v =>
      rw [run_bind_of_error hs]
      obtain ⟨begun, hb, _⟩ := sleep_begun hs
      exact ⟨begun, hb.symm⟩
    | ok _ v =>
      rw [run_bind_of_ok hs]
      obtain ⟨ms, -, -, rfl⟩ := run_sleep_eq_ok.mp hs
      have hslept : w.trace <+: (w.slept ms).trace := by
        rw [World.trace_slept]
        exact List.prefix_append _ _
      exact hslept.trans (awaiting_grows c queue url timeout start _)

/-- The loop with a longer timeout goes on where the loop with the shorter one gives up. The induction is on the
course of the shorter one, each step of which the longer one takes too. -/
theorem Awaits.goesOn (hnonneg : 0 ≤ timeout) (hlonger : Outlasts longer timeout) {w : World σ} {es : List Entry}
    {r : EStateM.Result Fault (World σ) (Option Value)} (h : Awaits c queue url timeout start w es r) :
    GoesOn r ((awaiting c queue url longer start).run w) := by
  induction h with
  | fault hr _ => exact run_awaiting_of_error hr
  | record hr _ => exact run_awaiting_of_some hr
  | @late w v _ hr _ _ =>
    rw [run_awaiting_of_none hr]
    exact unanswered_grows c queue url longer start v
  | halt hr _ hd hs _ _ =>
    have hlate := mt (Due.of_outlasts hnonneg hlonger) hd
    rw [run_awaiting_of_none hr, run_unanswered_of_not_due hlate]
    exact run_bind_of_error hs
  | again hr _ hd hs _ ih =>
    have hlate := mt (Due.of_outlasts hnonneg hlonger) hd
    rwa [run_awaiting_of_none hr, run_unanswered_of_not_due hlate, run_bind_of_ok hs]

omit [Service σ] in
theorem GoesOn.handOver {x y : Action σ (Option Value)} {w : World σ} (h : GoesOn (x.run w) (y.run w))
    (queue : Value) : GoesOn ((x >>= handOver queue).run w) ((y >>= handOver queue).run w) := by
  cases hx : x.run w with
  | error f v =>
    rw [hx] at h
    have hy : y.run w = .error f v := h
    rw [run_bind_of_error hx, run_bind_of_error hy]
    rfl
  | ok a v =>
    rw [hx] at h
    rw [run_bind_of_ok hx]
    cases a with
    | some record =>
      have hy : y.run w = .ok (some record) v := h
      rw [run_bind_of_ok hy]
      have hends := handOverEnds queue (some record) v
      generalize (Action.handOver queue (some record)).run v = r at hends ⊢
      cases hends <;> rfl
    | none =>
      have hprefix : v.trace <+: (left (y.run w)).trace := h
      cases hy : y.run w with
      | error f u =>
        rw [hy] at hprefix
        rw [run_bind_of_error hy]
        exact hprefix
      | ok b u =>
        rw [hy] at hprefix
        rw [run_bind_of_ok hy]
        obtain ⟨logs, htrace, _⟩ := handOver_trace queue b u
        exact hprefix.trans ⟨logs, htrace.symm⟩

theorem receive_goesOn (c : Connector) (queue : Value) (hnonneg : 0 ≤ timeout) (hlonger : Outlasts longer timeout)
    (w : World σ) : GoesOn ((receive c queue timeout).run w) ((receive c queue longer).run w) := by
  cases hresolve : (resolveQueue queue).run w with
  | error f v =>
    rw [run_receive_of_unresolved c timeout hresolve, run_receive_of_unresolved c longer hresolve]
    rfl
  | ok url v =>
    rw [run_receive_of_resolved c timeout hresolve, run_receive_of_resolved c longer hresolve]
    obtain ⟨_, hcourse⟩ := awaits c queue url timeout w.elapsed v
    exact (hcourse.goesOn hnonneg hlonger).handOver queue

/-- A longer wait only adds to a shorter one. Where the receive with the shorter timeout returns a message or
fails, the one with the longer timeout does the same and leaves the same world, with the same trace and clock;
where the shorter one returns nothing, all that it does is the beginning of what the longer one does. -/
theorem longer_wait_adds (c : Connector) (queue : Value) {timeout longer : Int} (hnonneg : 0 ≤ timeout)
    (hlonger : timeout ≤ longer ∨ longer < 0) (w : World σ) :
    (∀ ref v, (receive c queue timeout).run w = .ok (some ref) v →
        (receive c queue longer).run w = .ok (some ref) v) ∧
      (∀ f v, (receive c queue timeout).run w = .error f v → (receive c queue longer).run w = .error f v) ∧
      ∀ v, (receive c queue timeout).run w = .ok none v →
        heard (receive c queue timeout) w <+: heard (receive c queue longer) w := by
  have hgoes := receive_goesOn c queue hnonneg hlonger w
  refine ⟨?_, ?_, ?_⟩
  · intro ref v h
    rw [h] at hgoes
    exact hgoes
  · intro f v h
    rw [h] at hgoes
    exact hgoes
  · intro v h
    rw [h] at hgoes
    have hprefix : v.trace <+: (left ((receive c queue longer).run w)).trace := hgoes
    rw [heard, heard, h]
    exact hprefix.drop _

/-- A world with a bound queue and one body waiting, which the service withholds from the first two polls. -/
def withheld : World Script :=
  { started := 0, elapsed := 0, timers := [], running := true,
    service := ⟨[("receive_message", [⟨0, none, some (.ok (.dict []))⟩, ⟨0, none, some (.ok (.dict []))⟩])], 1,
      [(1, "\x7b\x7d")], 0⟩,
    store := ⟨[.queue ⟨.text "queue", .text "orders", .text "https://sqs/orders"⟩]⟩,
    serial := 0, patience := 3, trace := [] }

/-- Half a second is too short for the body, and two seconds are not: the longer wait begins as the shorter one,
and goes on to the message. -/
theorem withheld_received :
    heard (receive ⟨.int 1000, .null⟩ (.shared 0) 500) withheld <+:
        heard (receive ⟨.int 1000, .null⟩ (.shared 0) 2000) withheld ∧
      ∃ v ref v', (receive ⟨.int 1000, .null⟩ (.shared 0) 500).run withheld = .ok none v ∧
        (receive ⟨.int 1000, .null⟩ (.shared 0) 2000).run withheld = .ok (some ref) v' := by
  have hshort : ∃ v, (receive ⟨.int 1000, .null⟩ (.shared 0) 500).run withheld = .ok none v := ⟨_, by
    with_unfolding_all rfl⟩
  have hlong : ∃ ref v, (receive ⟨.int 1000, .null⟩ (.shared 0) 2000).run withheld = .ok (some ref) v := ⟨_, _, by
    with_unfolding_all rfl⟩
  obtain ⟨v, hv⟩ := hshort
  obtain ⟨ref, v', hv'⟩ := hlong
  obtain ⟨_, _, hadds⟩ := longer_wait_adds ⟨.int 1000, .null⟩ (.shared 0) (by decide : (0 : Int) ≤ 500)
    (.inl (by decide : (500 : Int) ≤ 2000)) withheld
  exact ⟨hadds v hv, v, ref, v', hv, hv'⟩

end MessageBus.Action
