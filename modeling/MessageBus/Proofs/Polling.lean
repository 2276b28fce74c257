import MessageBus.Connector.Receive
import MessageBus.Proofs.Runs

/-!
# The polling loop

`RoundEnds` lists all that one round of polling can do, and `Awaits` how rounds and sleeps follow each
other until the loop ends. Every run of the loop is such a course (`awaits`), so that what holds of a run
is shown by induction on its course.

The loop is `Action.awaiting`, which is `Action.awaitRecord` with as many rounds as the world has patience
for; what it does after a round without a record is `Action.unanswered`.
-/

namespace MessageBus.Action

variable {σ : Type} [Service σ]

/-! ## One round -/

/-- The request of a poll. -/
abbrev pollOf (c : Connector) (url : Value) : Request := .receiveMessage url c.wait

/-- The record that an answer to a poll hands out, if it has one. -/
def handedOut (answer : Value) : Except Fault (Option Value) := do
  let record ← (← answer.get "Messages" (.list [])).first?
  .ok (record.filter (!·.isNull))

/-- The context of the error of a poll that fails. -/
def pollContext (w : World σ) (queue : Value) : Except Fault Text :=
  (w.store.expanded queue).inWords.map fun t => "Unable to receive message from '" ++ t ++ "'"

/-- The log line of a round that finds the connection stopped. -/
def idle : Event :=
  .log .debug .connector "Not accepting messages. Connection is paused or not started."

/-- The log line of a release that failed. -/
def unreleased (words : Text) : Event :=
  .log .warning .connector ("Unable to reset visibility timeout for message: " ++ words)

theorem run_poll_ok {c : Connector} {url answer : Value} {w : World σ} (queue : Value)
    (h : (w.reply (pollOf c url)).outcome = .ok answer) :
    (poll c queue url).run w = (lift (handedOut answer)).run (w.after (pollOf c url)) := by
  rw [poll, run_bind_of_ok (run_words _ _), run_bind_of_ok (run_request_ok _ h), handedOut]
  simp only [lift_bind]
  rfl

/-- A failed poll ends in the error that tells the failure, or in a fault when the failure or the queue cannot be put
into words, or there are no codes to ask for. -/
theorem run_poll_error {c : Connector} {url : Value} {failure : Failure} {w : World σ} (queue : Value)
    (h : (w.reply (pollOf c url)).outcome = .error failure) :
    (poll c queue url).run w =
      match failure.toldIn (pollContext w queue) with
      | .ok e => .error (.bus e) ((w.after (pollOf c url)).record (.log .error .errors e.message))
      | .error f => .error f (w.after (pollOf c url)) := by
  rw [poll, run_bind_of_ok (run_words _ _), EStateM.run_bind, run_request_error _ h]
  rw [pollContext]
  cases failure.toldIn _ <;> rfl

/-- A release goes through whether or not the request fails, as long as the failure can be told. -/
theorem run_release {url record handle : Value} (w : World σ)
    (h : record.item "ReceiptHandle" = .ok handle) :
    (release url record).run w =
      match (w.reply (.changeVisibility url handle)).outcome with
      | .ok _ => .ok () (w.after (.changeVisibility url handle))
      | .error failure =>
        match failure.text with
        | .ok words => .ok () ((w.after (.changeVisibility url handle)).record (unreleased words))
        | .error f => .error f (w.after (.changeVisibility url handle)) := by
  simp only [release, h, run_bind_of_ok (run_lift_ok _ _), run_bind_of_ok (run_perform _ _)]
  cases (w.reply (.changeVisibility url handle)).outcome with
  | ok _ => rfl
  | error failure =>
    cases ht : failure.text <;> simp [unreleased, ht]

theorem run_release_handleless {url record : Value} {f : Fault} (w : World σ)
    (h : record.item "ReceiptHandle" = .error f) : (release url record).run w = .error f w := by
  simp [release, h]

/-- All that a round can do. -/
inductive RoundEnds (c : Connector) (queue url : Value) (w : World σ) :
    EStateM.Result Fault (World σ) (Option Value) → Prop where
  /-- The connection is stopped, so there is no poll. -/
  | stopped (hw : w.running = false) : RoundEnds c queue url w (.ok none (w.record idle))
  | failed {failure : Failure} {e : BusError} (hw : w.running = true)
      (ho : (w.reply (pollOf c url)).outcome = .error failure)
      (he : failure.toldIn (pollContext w queue) = .ok e) :
      RoundEnds c queue url w
        (.error (.bus e) ((w.after (pollOf c url)).record (.log .error .errors e.message)))
  | untold {failure : Failure} {f : Fault} (hw : w.running = true)
      (ho : (w.reply (pollOf c url)).outcome = .error failure)
      (he : failure.toldIn (pollContext w queue) = .error f) :
      RoundEnds c queue url w (.error f (w.after (pollOf c url)))
  | malformed {answer : Value} {f : Fault} (hw : w.running = true)
      (ho : (w.reply (pollOf c url)).outcome = .ok answer) (ha : handedOut answer = .error f) :
      RoundEnds c queue url w (.error f (w.after (pollOf c url)))
  | empty {answer : Value} (hw : w.running = true)
      (ho : (w.reply (pollOf c url)).outcome = .ok answer) (ha : handedOut answer = .ok none) :
      RoundEnds c queue url w (.ok none (w.after (pollOf c url)))
  | kept {answer record : Value} (hw : w.running = true)
      (ho : (w.reply (pollOf c url)).outcome = .ok answer) (ha : handedOut answer = .ok (some record))
      (hv : (w.after (pollOf c url)).running = true) :
      RoundEnds c queue url w (.ok (some record) (w.after (pollOf c url)))
  /-- A record arrives after a stop, and is released. -/
  | released {answer record handle a : Value} (hw : w.running = true)
      (ho : (w.reply (pollOf c url)).outcome = .ok answer) (ha : handedOut answer = .ok (some record))
      (hv : (w.after (pollOf c url)).running = false)
      (hh : record.item "ReceiptHandle" = .ok handle)
      (hr : ((w.after (pollOf c url)).reply (.changeVisibility url handle)).outcome = .ok a) :
      RoundEnds c queue url w (.ok none ((w.after (pollOf c url)).after (.changeVisibility url handle)))
  /-- A record arrives after a stop, and its release fails. -/
  | hidden {answer record handle : Value} {failure : Failure} {words : Text} (hw : w.running = true)
      (ho : (w.reply (pollOf c url)).outcome = .ok answer) (ha : handedOut answer = .ok (some record))
      (hv : (w.after (pollOf c url)).running = false)
      (hh : record.item "ReceiptHandle" = .ok handle)
      (hr : ((w.after (pollOf c url)).reply (.changeVisibility url handle)).outcome = .error failure)
      (ht : failure.text = .ok words) :
      RoundEnds c queue url w
        (.ok none (((w.after (pollOf c url)).after (.changeVisibility url handle)).record (unreleased words)))
  /-- A record arrives after a stop, and its release fails in a way that cannot be told. -/
  | lost {answer record handle : Value} {failure : Failure} {f : Fault} (hw : w.running = true)
      (ho : (w.reply (pollOf c url)).outcome = .ok answer) (ha : handedOut answer = .ok (some record))
      (hv : (w.after (pollOf c url)).running = false)
      (hh : record.item "ReceiptHandle" = .ok handle)
      (hr : ((w.after (pollOf c url)).reply (.changeVisibility url handle)).outcome = .error failure)
      (ht : failure.text = .error f) :
      RoundEnds c queue url w (.error f ((w.after (pollOf c url)).after (.changeVisibility url handle)))
  /-- A record without a receipt handle arrives after a stop. -/
  | handleless {answer record : Value} {f : Fault} (hw : w.running = true)
      (ho : (w.reply (pollOf c url)).outcome = .ok answer) (ha : handedOut answer = .ok (some record))
      (hv : (w.after (pollOf c url)).running = false)
      (hh : record.item "ReceiptHandle" = .error f) :
      RoundEnds c queue url w (.error f (w.after (pollOf c url)))

theorem roundEnds (c : Connector) (queue url : Value) (w : World σ) :
    RoundEnds c queue url w ((round c queue url).run w) := by
  unfold round
  rw [run_bind_of_ok (EStateM.run_get w)]
  cases hw : w.running with
  | false => exact .stopped hw
  | true =>
    simp only [if_true]
    cases ho : (w.reply (pollOf c url)).outcome with
    | error failure =>
      rw [EStateM.run_bind, run_poll_error queue ho]
      cases he : failure.toldIn (pollContext w queue) with
      | ok e => exact .failed hw ho he
      | error f => exact .untold hw ho he
    | ok answer =>
      rw [EStateM.run_bind, run_poll_ok queue ho]
      cases ha : handedOut answer with
      | error f => exact .malformed hw ho ha
      | ok r =>
        cases r with
        | none => exact .empty hw ho ha
        | some record =>
          simp only [run_lift_ok, run_bind_of_ok (EStateM.run_get _)]
          cases hv : (w.after (pollOf c url)).running with
          | true => exact .kept hw ho ha hv
          | false =>
            simp only [Bool.false_eq_true, if_false]
            cases hh : record.item "ReceiptHandle" with
            | error f =>
              rw [run_bind_of_error (run_release_handleless _ hh)]
              exact .handleless hw ho ha hv hh
            | ok handle =>
              rw [EStateM.run_bind, run_release _ hh]
              cases hr : ((w.after (pollOf c url)).reply (.changeVisibility url handle)).outcome with
              | ok a => exact .released hw ho ha hv hh hr
              | error failure =>
                cases ht : failure.text with
                | ok words => simpa [ht] using .hidden hw ho ha hv hh hr ht
                | error f => simpa [ht] using .lost hw ho ha hv hh hr ht

theorem RoundEnds.frame {c : Connector} {queue url : Value} {w : World σ}
    {r : EStateM.Result Fault (World σ) (Option Value)} (h : RoundEnds c queue url w r) :
    (left r).patience = w.patience ∧ (left r).store = w.store := by
  cases h <;> exact ⟨rfl, rfl⟩

/-- A round without a record found the connection stopped, or nothing in the queue, or released what it
found. -/
theorem RoundEnds.grows {c : Connector} {queue url : Value} {w : World σ}
    {r : EStateM.Result Fault (World σ) (Option Value)} (h : RoundEnds c queue url w r) :
    ∃ es, (left r).trace = w.trace ++ es := by
  cases h <;> exact ⟨_, by simp [left]; rfl⟩

/-! ## The loop -/

/-- The loop with as many rounds as the world has patience for. -/
def awaiting (c : Connector) (queue url : Value) (timeout : Int) (start : Rat) : Action σ (Option Value) := do
  awaitRecord c queue url timeout start ((← get).patience + 1)

/-- The time is up in a world. -/
abbrev Due (timeout : Int) (start : Rat) (w : World σ) : Prop :=
  0 ≤ timeout ∧ (timeout : Rat) ≤ w.elapsed - start

/-- What the loop does after a round that gave no record: it checks the timeout, sleeps and goes on. -/
def unanswered (c : Connector) (queue url : Value) (timeout : Int) (start : Rat) :
    Action σ (Option Value) := do
  if Due timeout start (← get) then pure none
  else
    sleep c.interval
    awaiting c queue url timeout start

theorem run_unanswered_of_due {c : Connector} {queue url : Value} {timeout : Int} {start : Rat} {w : World σ}
    (h : Due timeout start w) : (unanswered c queue url timeout start).run w = .ok none w := by
  rw [unanswered, run_bind_of_ok (EStateM.run_get w), if_pos h]
  rfl

theorem run_unanswered_of_not_due {c : Connector} {queue url : Value} {timeout : Int} {start : Rat}
    {w : World σ} (h : ¬ Due timeout start w) :
    (unanswered c queue url timeout start).run w =
      (do sleep c.interval; awaiting c queue url timeout start : Action σ (Option Value)).run w := by
  rw [unanswered, run_bind_of_ok (EStateM.run_get w), if_neg h]

/-- The loop is one round, and what follows a round without a record. -/
theorem awaiting_eq (c : Connector) (queue url : Value) (timeout : Int) (start : Rat) :
    (awaiting c queue url timeout start : Action σ (Option Value)) = (do
      match ← round c queue url with
      | some record => pure (some record)
      | none => unanswered c queue url timeout start) := by
  funext w
  change (awaiting c queue url timeout start).run w = EStateM.run _ w
  rw [awaiting, run_bind_of_ok (EStateM.run_get w), awaitRecord]
  have hframe := (roundEnds c queue url w).frame.1
  cases hr : (round c queue url).run w with
  | error f v => rw [run_bind_of_error hr, run_bind_of_error hr]
  | ok r v =>
    rw [hr] at hframe
    rw [run_bind_of_ok hr, run_bind_of_ok hr]
    cases r with
    | some record => rfl
    | none =>
      simp only [run_bind_of_ok (EStateM.run_get v)]
      by_cases hd : Due timeout start v
      · rw [run_unanswered_of_due hd, if_pos hd]
        rfl
      · rw [run_unanswered_of_not_due hd, if_neg hd]
        cases hs : (sleep c.interval).run v with
        | error f u => rw [run_bind_of_error hs, run_bind_of_error hs]
        | ok _ u =>
          -- a sleep takes one from the patience, so the rounds left are those of the loop started anew
          obtain ⟨ms, -, hp, rfl⟩ := run_sleep_eq_ok.mp hs
          rw [run_bind_of_ok hs, run_bind_of_ok hs, awaiting, run_bind_of_ok (EStateM.run_get _)]
          have hrounds : (v.slept ms).patience + 1 = w.patience := by
            have : v.patience = w.patience := hframe
            simp only [World.patience_slept]
            omega
          rw [hrounds]

theorem run_awaiting_of_none {c : Connector} {queue url : Value} {timeout : Int} {start : Rat} {w v : World σ}
    (hr : (round c queue url).run w = .ok none v) :
    (awaiting c queue url timeout start).run w = (unanswered c queue url timeout start).run v := by
  rw [awaiting_eq, run_bind_of_ok hr]

theorem run_awaiting_of_some {c : Connector} {queue url record : Value} {timeout : Int} {start : Rat}
    {w v : World σ} (hr : (round c queue url).run w = .ok (some record) v) :
    (awaiting c queue url timeout start).run w = .ok (some record) v := by
  rw [awaiting_eq, run_bind_of_ok hr]
  rfl

theorem run_awaiting_of_error {c : Connector} {queue url : Value} {timeout : Int} {start : Rat} {w v : World σ}
    {f : Fault} (hr : (round c queue url).run w = .error f v) :
    (awaiting c queue url timeout start).run w = .error f v := by
  rw [awaiting_eq, run_bind_of_error hr]

/-- The course of a run of the loop, with the entries that it adds to the trace. -/
inductive Awaits (c : Connector) (queue url : Value) (timeout : Int) (start : Rat) :
    World σ → List Entry → EStateM.Result Fault (World σ) (Option Value) → Prop where
  | fault {w v : World σ} {es : List Entry} {f : Fault} (hr : (round c queue url).run w = .error f v)
      (hes : v.trace = w.trace ++ es) : Awaits c queue url timeout start w es (.error f v)
  | record {w v : World σ} {es : List Entry} {record : Value}
      (hr : (round c queue url).run w = .ok (some record) v) (hes : v.trace = w.trace ++ es) :
      Awaits c queue url timeout start w es (.ok (some record) v)
  | late {w v : World σ} {es : List Entry} (hr : (round c queue url).run w = .ok none v)
      (hes : v.trace = w.trace ++ es) (hd : Due timeout start v) :
      Awaits c queue url timeout start w es (.ok none v)
  | halt {w v u : World σ} {es begun : List Entry} {f : Fault} (hr : (round c queue url).run w = .ok none v)
      (hes : v.trace = w.trace ++ es) (hd : ¬ Due timeout start v)
      (hs : (sleep c.interval).run v = .error f u) (hb : u.trace = v.trace ++ begun)
      (hbegun : ∀ e ∈ begun, ∃ ms, e = v.now (.sleep ms)) :
      Awaits c queue url timeout start w (es ++ begun) (.error f u)
  /-- A round and a sleep, and the rest of the loop. -/
  | again {w v : World σ} {es later : List Entry} {ms : Rat}
      {r : EStateM.Result Fault (World σ) (Option Value)} (hr : (round c queue url).run w = .ok none v)
      (hes : v.trace = w.trace ++ es) (hd : ¬ Due timeout start v)
      (hs : (sleep c.interval).run v = .ok () (v.slept ms))
      (rest : Awaits c queue url timeout start (v.slept ms) later r) :
      Awaits c queue url timeout start w (es ++ v.now (.sleep ms) :: later) r

/-- Every run of the loop takes a course. The induction is on the patience, of which every sleep takes
one. -/
theorem awaits (c : Connector) (queue url : Value) (timeout : Int) (start : Rat) (w : World σ) :
    ∃ es, Awaits c queue url timeout start w es ((awaiting c queue url timeout start).run w) := by
  induction hn : w.patience using Nat.strongRecOn generalizing w with
  | ind n ih =>
    have hround := roundEnds c queue url w
    obtain ⟨es, hes⟩ := hround.grows
    cases hr : (round c queue url).run w with
    | error f v =>
      rw [run_awaiting_of_error hr]
      rw [hr] at hes
      exact ⟨es, .fault hr hes⟩
    | ok r v =>
      rw [hr] at hround hes
      cases r with
      | some record =>
        rw [run_awaiting_of_some hr]
        exact ⟨es, .record hr hes⟩
      | none =>
        rw [run_awaiting_of_none hr]
        by_cases hd : Due timeout start v
        · rw [run_unanswered_of_due hd]
          exact ⟨es, .late hr hes hd⟩
        · rw [run_unanswered_of_not_due hd]
          cases hs : (sleep c.interval).run v with
          | error f u =>
            rw [run_bind_of_error hs]
            obtain ⟨begun, hb, hbegun⟩ := sleep_begun hs
            exact ⟨_, .halt hr hes hd hs hb hbegun⟩
          | ok _ u =>
            rw [run_bind_of_ok hs]
            obtain ⟨ms, -, hp, rfl⟩ := run_sleep_eq_ok.mp hs
            have hless : (v.slept ms).patience < n := by
              have : v.patience = w.patience := hround.frame.1
              simp only [World.patience_slept]
              omega
            obtain ⟨later, rest⟩ := ih _ hless _ rfl
            exact ⟨_, .again hr hes hd hs rest⟩

theorem Awaits.run {c : Connector} {queue url : Value} {timeout : Int} {start : Rat} {w : World σ}
    {es : List Entry} {r : EStateM.Result Fault (World σ) (Option Value)}
    (h : Awaits c queue url timeout start w es r) : (awaiting c queue url timeout start).run w = r := by
  induction h with
  | fault hr _ => exact run_awaiting_of_error hr
  | record hr _ => exact run_awaiting_of_some hr
  | late hr _ hd => rw [run_awaiting_of_none hr, run_unanswered_of_due hd]
  | halt hr _ hd hs _ _ => rw [run_awaiting_of_none hr, run_unanswered_of_not_due hd, run_bind_of_error hs]
  | again hr _ hd hs _ ih => rw [run_awaiting_of_none hr, run_unanswered_of_not_due hd, run_bind_of_ok hs, ih]

theorem Awaits.trace {c : Connector} {queue url : Value} {timeout : Int} {start : Rat} {w : World σ}
    {es : List Entry} {r : EStateM.Result Fault (World σ) (Option Value)}
    (h : Awaits c queue url timeout start w es r) : (left r).trace = w.trace ++ es := by
  induction h with
  | fault _ hes => exact hes
  | record _ hes => exact hes
  | late _ hes _ => exact hes
  | halt _ hes _ _ hb _ => rw [left, hb, hes, List.append_assoc]
  | again _ hes _ _ _ ih => rw [ih, World.trace_slept, hes]; simp

end MessageBus.Action
