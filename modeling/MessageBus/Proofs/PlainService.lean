import MessageBus.Proofs.Receiving
import MessageBus.Proofs.Sending
import MessageBus.Script

/-!
# A service without a script

A service whose script says nothing answers every request at once and never stops the connection. In such a
calm world a send puts a body at the end of what waits, and a receive takes the body that waits longest.
-/

namespace MessageBus

namespace Script

/-- The script has nothing left to say. -/
def Spent (s : Script) : Prop := ∀ e ∈ s.steps, e.2 = []

theorem next_of_spent {steps : List (Text × List ScriptStep)} (h : ∀ e ∈ steps, e.2 = []) (method : Text) :
    next method steps = (plainStep, steps) := by
  induction steps with
  | nil => rfl
  | cons e rest ih =>
    obtain ⟨m, more⟩ := e
    have hmore : more = [] := h (m, more) (by simp)
    have hrest := ih fun e he => h e (by simp [he])
    subst hmore
    rw [next, hrest]
    split <;> rfl

theorem reply_of_spent {s : Script} (h : s.Spent) (r : Request) :
    reply r s = (⟨0, none, .ok (plainAnswer r s).1⟩, (plainAnswer r s).2) := by
  rw [reply, next_of_spent h]
  rfl

theorem steps_plainAnswer (r : Request) (s : Script) : (plainAnswer r s).2.steps = s.steps := by
  unfold plainAnswer
  split
  · rfl
  · rfl
  · rfl
  · split <;> rfl
  · rfl

end Script

namespace World

/-- The script is spent, and the connection runs and is not about to be stopped by a timer. -/
structure Calm (w : World Script) : Prop where
  spent : w.service.Spent
  running : w.running = true
  timers : ∀ t ∈ w.timers, t.due ≤ w.elapsed → t.running = true

variable {w : World Script}

theorem Calm.answer (h : w.Calm) (r : Request) :
    Service.answer r w.service =
      (⟨0, none, .ok (Script.plainAnswer r w.service).1⟩, (Script.plainAnswer r w.service).2) :=
  Script.reply_of_spent h.spent r

theorem Calm.outcome (h : w.Calm) (r : Request) :
    (w.reply r).outcome = .ok (Script.plainAnswer r w.service).1 := by
  rw [reply, h.answer]

theorem Calm.service_after (h : w.Calm) (r : Request) :
    (w.after r).service = (Script.plainAnswer r w.service).2 := by
  rw [World.service_after, h.answer]

theorem Calm.elapsed_after (h : w.Calm) (r : Request) : (w.after r).elapsed = w.elapsed := by
  have htakes : (w.reply r).takes = 0 := by rw [reply, h.answer]
  have helapsed : (w.after r).elapsed = w.elapsed + (w.reply r).takes := rfl
  rw [helapsed, htakes, Rat.add_zero]

theorem flagAfter_of_starts {timers : List Timer} {now : Rat}
    (h : ∀ t ∈ timers, t.due ≤ now → t.running = true) :
    flagAfter timers now true = true := by
  induction timers with
  | nil => rfl
  | cons t rest ih =>
    rw [flagAfter]
    by_cases hdue : t.due ≤ now
    · rw [List.takeWhile_cons_of_pos (by simpa using hdue), List.foldl_cons, h t (by simp) hdue]
      exact ih fun u hu => h u (by simp [hu])
    · rw [List.takeWhile_cons_of_neg (by simpa using hdue)]
      rfl

theorem Calm.after (h : w.Calm) (r : Request) : (w.after r).Calm where
  spent := by
    rw [h.service_after, Script.Spent, Script.steps_plainAnswer]
    exact h.spent
  running := by
    have hflip : (w.reply r).flip = none := by rw [reply, h.answer]
    have hrunning : (w.after r).running =
        (w.reply r).flip.getD (flagAfter w.timers (w.elapsed + (w.reply r).takes) w.running) := rfl
    have htakes : (w.reply r).takes = 0 := by rw [reply, h.answer]
    rw [hrunning, hflip, htakes, Rat.add_zero, h.running]
    exact flagAfter_of_starts h.timers
  timers t ht := by
    rw [h.elapsed_after]
    have hsub : t ∈ w.timers := (List.dropWhile_suffix _).subset ht
    exact h.timers t hsub

theorem Calm.put (h : w.Calm) (ref : Ref) (o : Object) : (w.put ref o).Calm := ⟨h.spent, h.running, h.timers⟩

theorem Calm.note (h : w.Calm) (level : Level) (logger : Logger) (line : Except Fault Text) :
    (w.note level logger line).Calm := ⟨h.spent, h.running, h.timers⟩

theorem Calm.taken (h : w.Calm) (id body : Value) (m : Message Value) : (Action.taken w id body m).Calm := by
  rw [Action.taken, heeded]
  split
  · exact ⟨h.spent, h.running, h.timers⟩
  · exact ⟨h.spent, h.running, h.timers⟩

end World

namespace Store

/-- All messages are still what they were. -/
def Keeps (s t : Store) : Prop := ∀ ref m, s.object? ref = some (.message m) → t.object? ref = some (.message m)

theorem Keeps.trans {s t u : Store} (h : s.Keeps t) (h' : t.Keeps u) : s.Keeps u :=
  fun ref m hm => h' ref m (h ref m hm)

end Store

/-- A calm world with a queue in it. -/
structure Ready (queue : Ref) (w : World Script) : Prop where
  calm : w.Calm
  queue : ∃ q, w.store.object? queue = some (.queue q)

namespace Ready

open MessageBus.Action

variable {queue : Ref} {w : World Script}

theorem lookup (h : Ready queue w) :
    ∃ url v, (resolveQueue (.shared queue)).run w = .ok url v ∧ Ready queue v ∧ v.service = w.service ∧
      w.store.Keeps v.store := by
  obtain ⟨q, hq⟩ := h.queue
  have hanswer := h.calm.outcome (lookupOf w q)
  have hends := urlEnds queue q w
  rw [run_resolveQueue hq]
  cases hr : (urlOf queue q).run w with
  | ok url v =>
    rw [hr] at hends
    have hquiet : v.Calm ∧ v.service = w.service := by
      cases hends with
      | known _ => exact ⟨h.calm, rfl⟩
      | found _ _ _ => exact ⟨((h.calm.after _).put _ _).note _ _ _, h.calm.service_after _⟩
    refine ⟨url, v, rfl, ⟨hquiet.1, hends.queue hq⟩, hquiet.2, fun ref m hm => ?_⟩
    have hframe : v.store.object? ref = w.store.object? ref := hends.frame (Store.ne_of_message hq hm)
    rw [hframe, hm]
  | error f v =>
    rw [hr] at hends
    cases hends with
    | malformed _ ho hu =>
      rw [hanswer] at ho
      cases ho
      cases hu
    | failed _ ho _ =>
      rw [hanswer] at ho
      cases ho
    | untold _ ho _ =>
      rw [hanswer] at ho
      cases ho

theorem round (h : Ready queue w) (c : Connector) (source url : Value) {n : Nat} {body : Text}
    {rest : List (Nat × Text)} (hwaiting : w.service.waiting = (n, body) :: rest) :
    (Action.round c source url).run w =
        .ok (some (Script.record n (w.service.delivered + 1) body)) (w.after (pollOf c url)) ∧
      (w.after (pollOf c url)).service =
        { w.service with waiting := rest, delivered := w.service.delivered + 1 } := by
  have hplain : Script.plainAnswer (pollOf c url) w.service =
      (Value.ofFields [("Messages", .list [Script.record n (w.service.delivered + 1) body])],
        { w.service with waiting := rest, delivered := w.service.delivered + 1 }) := by
    rw [Script.plainAnswer, hwaiting]
  have hanswer := h.calm.outcome (pollOf c url)
  have hservice := h.calm.service_after (pollOf c url)
  rw [hplain] at hanswer hservice
  have hpoll : (poll c source url).run w =
      .ok (some (Script.record n (w.service.delivered + 1) body)) (w.after (pollOf c url)) := by
    rw [run_poll_ok source hanswer]
    rfl
  refine ⟨?_, hservice⟩
  rw [Action.round, run_bind_of_ok (EStateM.run_get w), if_pos h.calm.running, run_bind_of_ok hpoll]
  -- the connection still runs when the answer is there, so the record is kept
  simp only
  rw [run_bind_of_ok (EStateM.run_get _), if_pos (h.calm.after _).running]
  rfl

/-- A receive makes the body that waits longest into a message, within any timeout. -/
theorem receive (h : Ready queue w) (c : Connector) (timeout : Int) {n : Nat} {body : Text}
    {rest : List (Nat × Text)} (hwaiting : w.service.waiting = (n, body) :: rest) :
    ∃ ref got v, (Action.receive c (.shared queue) timeout).run w = .ok (some ref) v ∧ Ready queue v ∧
      v.service = { w.service with waiting := rest, delivered := w.service.delivered + 1 } ∧
      w.store.Keeps v.store ∧ v.store.object? ref = some (.message got) ∧
      converted (Script.record n (w.service.delivered + 1) body) (.shared queue) = .ok got := by
  obtain ⟨url, u, hresolve, hready, hservice, hkeeps⟩ := h.lookup
  rw [← hservice] at hwaiting ⊢
  obtain ⟨hround, hafter⟩ := hready.round c (.shared queue) url hwaiting
  -- the first round gives the record, so neither the timeout nor the patience of the world comes in
  have hloop : (awaiting c (.shared queue) url timeout w.elapsed).run u =
      .ok (some (Script.record n (u.service.delivered + 1) body)) (u.after (pollOf c url)) := by
    rw [awaiting_eq, run_bind_of_ok hround]
    rfl
  have hwhole : Whole (Script.record n (u.service.delivered + 1) body) := ⟨_, _, _, ⟨rfl, rfl⟩, rfl, rfl⟩
  obtain ⟨got, hgot⟩ := converted_of_whole (.shared queue) hwhole
  have hreceive := run_handOver rfl rfl hgot (w := u.after (pollOf c url))
  rw [← run_bind_of_ok hloop, ← run_receive_of_resolved c timeout hresolve] at hreceive
  obtain ⟨q, hq⟩ := hready.queue
  refine ⟨_, got, _, hreceive, ⟨(hready.calm.after _).taken .., q, ?_⟩, ?_, fun other m hm => ?_, ?_, hgot⟩
  · rw [store_taken, World.store_after, Store.object?_add_of_some hq]
  · rw [service_taken, hafter]
  · rw [store_taken, World.store_after, Store.object?_add_of_some (hkeeps other m hm)]
  · rw [store_taken, Store.object?_add, if_pos rfl]

end Ready

end MessageBus
