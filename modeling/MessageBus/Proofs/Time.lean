import Mathlib.Algebra.BigOperators.Group.List.Basic
import Mathlib.Algebra.Order.Ring.Rat
import Mathlib.Data.List.DropRight
import MessageBus.Proofs.PlainService
import MessageBus.Proofs.PollTrace

/-!
# Time in a trace

Time passes in requests and in sleeps. How long the requests of a trace took is read off its entries
(`requestTime`), and a service moves time forward when none of its replies takes a negative time
(`Service.Forward`), as one that follows a script does when no step of the script takes one. A lookup and a round
take the time of their requests and sleep never (`Passes`).
-/

namespace MessageBus

/-! ## Sleeps, polls and requests -/

namespace Entry

/-- The entry begins a sleep. -/
def isSleep (e : Entry) : Bool :=
  match e.event with
  | .sleep _ => true
  | _ => false

/-- The entry begins a poll. -/
def isPoll (e : Entry) : Bool :=
  match e.event with
  | .call (.receiveMessage _ _) => true
  | _ => false

/-- What an entry adds to the time that requests take: each takes from its call to its answer. -/
def share (e : Entry) : Rat :=
  match e.event with
  | .call _ => -e.time
  | .answer _ _ => e.time
  | _ => 0

end Entry

def sleeps (es : List Entry) : Nat := es.countP Entry.isSleep

def polls (es : List Entry) : Nat := es.countP Entry.isPoll

/-- The time that the requests of a trace take. -/
def requestTime (es : List Entry) : Rat := (es.map Entry.share).sum

/-- What stands behind the last sleep of a trace. -/
def lastRound (es : List Entry) : List Entry := es.rtakeWhile (!·.isSleep)

@[simp] theorem sleeps_append (es es' : List Entry) : sleeps (es ++ es') = sleeps es + sleeps es' :=
  List.countP_append

@[simp] theorem polls_append (es es' : List Entry) : polls (es ++ es') = polls es + polls es' :=
  List.countP_append

@[simp] theorem requestTime_append (es es' : List Entry) :
    requestTime (es ++ es') = requestTime es + requestTime es' := by
  simp [requestTime]

theorem not_isSleep {es : List Entry} (h : sleeps es = 0) : ∀ e ∈ es, ¬ e.isSleep = true :=
  List.countP_eq_zero.mp h

theorem isLog_unnoticed {e : Entry} (h : e.isLog) : e.isSleep = false ∧ e.isPoll = false ∧ e.share = 0 := by
  obtain ⟨level, logger, t, he⟩ := h
  simp [Entry.isSleep, Entry.isPoll, Entry.share, he]

theorem sleeps_of_isLog {es : List Entry} (h : ∀ e ∈ es, e.isLog) : sleeps es = 0 :=
  List.countP_eq_zero.mpr fun e he => by simp [(isLog_unnoticed (h e he)).1]

theorem polls_of_isLog {es : List Entry} (h : ∀ e ∈ es, e.isLog) : polls es = 0 :=
  List.countP_eq_zero.mpr fun e he => by simp [(isLog_unnoticed (h e he)).2.1]

theorem requestTime_of_isLog {es : List Entry} (h : ∀ e ∈ es, e.isLog) : requestTime es = 0 := by
  refine List.sum_eq_zero fun x hx => ?_
  obtain ⟨e, he, rfl⟩ := List.mem_map.mp hx
  exact (isLog_unnoticed (h e he)).2.2

/-- The last round does not depend on what is ahead of the last sleep. -/
theorem lastRound_append {es es' : List Entry} (h : 0 < sleeps es') : lastRound (es ++ es') = lastRound es' := by
  obtain ⟨e, he, hsleep⟩ := List.countP_pos_iff.mp h
  have hlength : (es'.reverse.takeWhile (!·.isSleep)).length ≠ es'.reverse.length := by
    intro heq
    have hall := List.takeWhile_eq_self_iff.mp ((List.takeWhile_prefix _).eq_of_length heq)
    simpa [hsleep] using hall e (List.mem_reverse.mpr he)
  rw [lastRound, lastRound, List.rtakeWhile, List.rtakeWhile, List.reverse_append, List.takeWhile_append,
    if_neg hlength]

theorem lastRound_sleep {es es' : List Entry} {e : Entry} (he : e.isSleep = true) (h : sleeps es' = 0) :
    lastRound (es ++ e :: es') = es' := by
  have hall : ∀ x ∈ es'.reverse, (!x.isSleep) = true := by
    intro x hx
    simpa using not_isSleep h x (List.mem_reverse.mp hx)
  rw [lastRound, List.rtakeWhile, List.reverse_append, List.reverse_cons, List.append_assoc,
    List.takeWhile_append_of_pos hall]
  simp [he]

/-! ## Services that take their time -/

section services

variable {σ : Type} [Service σ]

/-- A service gets from one state into another one by what it is asked. -/
inductive Service.Reaches : σ → σ → Prop where
  | here (s : σ) : Reaches s s
  | asked {s t : σ} (h : Reaches s t) (r : Request) : Reaches s (Service.answer r t).2

/-- No reply takes a negative time, whatever the service was asked before. -/
def Service.Forward (s : σ) : Prop := ∀ t, Service.Reaches s t → ∀ r, 0 ≤ (Service.answer r t).1.takes

theorem Service.Reaches.trans {s t u : σ} (h : Service.Reaches s t) (h' : Service.Reaches t u) :
    Service.Reaches s u := by
  induction h' with
  | here => exact h
  | asked _ r ih => exact .asked ih r

theorem Service.Forward.answer {s : σ} (h : Service.Forward s) (r : Request) :
    Service.Forward (Service.answer r s).2 :=
  fun t ht => h t (Service.Reaches.trans (.asked (.here s) r) ht)

end services

namespace Script

/-- No step of the script takes a negative time. -/
def StepsForward (s : Script) : Prop := ∀ m steps, (m, steps) ∈ s.steps → ∀ step ∈ steps, 0 ≤ step.takes

theorem next_forward (method : Text) {steps : List (Text × List ScriptStep)}
    (h : ∀ m more, (m, more) ∈ steps → ∀ step ∈ more, 0 ≤ step.takes) :
    0 ≤ (next method steps).1.takes ∧
      ∀ m more, (m, more) ∈ (next method steps).2 → ∀ step ∈ more, 0 ≤ step.takes := by
  fun_induction next method steps with
  | case1 => exact ⟨le_refl _, h⟩
  | case2 => exact ⟨le_refl _, h⟩
  | case3 rest step more =>
    have hmore := h _ _ List.mem_cons_self
    refine ⟨hmore step List.mem_cons_self, fun m' more' hmem => ?_⟩
    rcases List.mem_cons.mp hmem with heq | hmem
    · cases heq
      exact fun x hx => hmore x (List.mem_cons_of_mem _ hx)
    · exact h m' more' (List.mem_cons_of_mem _ hmem)
  | case4 m more rest hm step rest' heq ih =>
    obtain ⟨htakes, hrest⟩ := ih fun m' more' hmem => h m' more' (List.mem_cons_of_mem _ hmem)
    rw [heq] at htakes hrest
    refine ⟨htakes, fun m' more' hmem => ?_⟩
    rcases List.mem_cons.mp hmem with heq' | hmem
    · cases heq'
      exact h _ _ List.mem_cons_self
    · exact hrest m' more' hmem

theorem reply_forward {s : Script} (h : s.StepsForward) (r : Request) :
    0 ≤ (reply r s).1.takes ∧ (reply r s).2.StepsForward := by
  obtain ⟨htakes, hsteps⟩ := next_forward r.method h
  unfold reply
  dsimp only
  split
  · exact ⟨htakes, hsteps⟩
  · refine ⟨htakes, ?_⟩
    dsimp only
    rw [StepsForward, steps_plainAnswer]
    exact hsteps

/-- A script whose steps take their time replies in no negative time. -/
theorem StepsForward.forward {s : Script} (h : s.StepsForward) : Service.Forward s := by
  intro t ht r
  have hsteps : t.StepsForward := by
    induction ht with
    | here => exact h
    | asked _ r ih => exact (reply_forward ih r).2
  exact (reply_forward hsteps r).1

end Script

namespace Action

variable {σ : Type} [Service σ] {c : Connector} {queue url : Value}

/-! ## Time without sleeps -/

@[simp] theorem sleeps_exchange (w : World σ) (r : Request) : sleeps (w.exchange r) = 0 := rfl

theorem requestTime_exchange (w : World σ) (r : Request) : requestTime (w.exchange r) = (w.reply r).takes := by
  have htakes : (w.after r).elapsed = w.elapsed + (w.reply r).takes := rfl
  simp [requestTime, World.exchange, Entry.share, World.now, htakes]

/-- From one world to another time passes in requests only. -/
structure Passes (w : World σ) (es : List Entry) (v : World σ) : Prop where
  forward : Service.Forward v.service
  elapsed : v.elapsed = w.elapsed + requestTime es
  later : w.elapsed ≤ v.elapsed
  awake : sleeps es = 0

theorem Passes.trans {w v u : World σ} {es es' : List Entry} (h : Passes w es v) (h' : Passes v es' u) :
    Passes w (es ++ es') u where
  forward := h'.forward
  elapsed := by rw [h'.elapsed, h.elapsed, requestTime_append, add_assoc]
  later := h.later.trans h'.later
  awake := by rw [sleeps_append, h.awake, h'.awake]

theorem Passes.request {w : World σ} (h : Service.Forward w.service) (r : Request) :
    Passes w (w.exchange r) (w.after r) where
  forward := h.answer r
  elapsed := by rw [requestTime_exchange]; rfl
  later := le_add_of_nonneg_right (h _ (.here _) r)
  awake := sleeps_exchange w r

/-- Log lines and what leaves the clock and the service alone take no time. -/
theorem Passes.of_same {w v : World σ} {es : List Entry} (h : Service.Forward w.service)
    (hservice : v.service = w.service) (helapsed : v.elapsed = w.elapsed) (hes : ∀ e ∈ es, e.isLog) :
    Passes w es v where
  forward := hservice ▸ h
  elapsed := by rw [helapsed, requestTime_of_isLog hes, add_zero]
  later := helapsed.ge
  awake := sleeps_of_isLog hes

theorem Told.passes {w v : World σ} {es : List Entry} (ht : Told w es v) (h : Service.Forward w.service) :
    Passes w es v := by
  have hlogs := ht.isLog
  cases ht with
  | nothing => exact .of_same h rfl rfl hlogs
  | line => exact .of_same h rfl rfl hlogs

theorem Round.passes {w v : World σ} {es : List Entry} (hround : Round c url w es v)
    (h : Service.Forward w.service) : Passes w es v := by
  cases hround with
  | stopped hw hv => exact hv.passes h
  | polled hw hv =>
    have hpoll := Passes.request h (pollOf c url)
    exact hpoll.trans (hv.passes hpoll.forward)
  | @released handle _ _ hw hstop hv =>
    have hpoll := Passes.request h (pollOf c url)
    have hrelease := Passes.request hpoll.forward (.changeVisibility url handle)
    exact hpoll.trans (hrelease.trans (hv.passes hrelease.forward))

@[simp] theorem polls_poll (w : World σ) : polls (w.exchange (pollOf c url)) = 1 := rfl

@[simp] theorem polls_release (w : World σ) (handle : Value) :
    polls (w.exchange (.changeVisibility url handle)) = 0 := rfl

theorem Round.polls_le {w v : World σ} {es : List Entry} (hround : Round c url w es v) : polls es ≤ 1 := by
  cases hround with
  | stopped hw hv => simp [polls_of_isLog hv.isLog]
  | polled hw hv => simp [polls_of_isLog hv.isLog]
  | released hw hstop hv => simp [polls_of_isLog hv.isLog]

theorem Round.polls_pos {w v : World σ} {es : List Entry} (hround : Round c url w es v) (hw : w.running = true) :
    0 < polls es := by
  cases hround with
  | stopped hstopped hv => simp [hw] at hstopped
  | polled hw hv =>
    rw [polls_append, polls_poll]
    omega
  | released hw hstop hv =>
    rw [polls_append, polls_poll]
    omega

theorem LookedUp.passes {w v : World σ} {es : List Entry} (hlooked : LookedUp w es v)
    (h : Service.Forward w.service) : Passes w es v := by
  cases hlooked with
  | known => exact .of_same h rfl rfl (by simp)
  | @asked name _ v _ hv htrace hu =>
    have hlookup := Passes.request h (.createQueue name)
    have hsame : Passes (w.after (.createQueue name)) [] v :=
      .of_same hlookup.forward hv.service hv.elapsed (by simp)
    exact hlookup.trans (hsame.trans (hu.passes hsame.forward))

theorem LookedUp.polls {w v : World σ} {es : List Entry} (hlooked : LookedUp w es v) : polls es = 0 := by
  cases hlooked with
  | known => rfl
  | asked hv htrace hu => rw [polls_append, polls_of_isLog hu.isLog]; rfl

/-- What a round adds to the trace is what one of the three forms of a round leaves there. -/
theorem round_of_trace {w : World σ} {es : List Entry} {r : EStateM.Result Fault (World σ) (Option Value)}
    (hr : (round c queue url).run w = r) (hes : (left r).trace = w.trace ++ es) : Round c url w es (left r) := by
  obtain ⟨es', hround⟩ := (roundEnds c queue url w).round
  rw [hr] at hround
  have htrace := hround.trace
  rw [hes] at htrace
  rwa [List.append_cancel_left htrace]

end Action

end MessageBus
