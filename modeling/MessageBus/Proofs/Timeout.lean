import Mathlib.Data.Rat.Floor
import Mathlib.Tactic.FieldSimp
import Mathlib.Tactic.Linarith
import MessageBus.Command
import MessageBus.Proofs.Patience
import MessageBus.Proofs.Time

/-!
# The timeout of a receive

A receive with a timeout ends in time (`honours_timeout`): it sleeps as often as the poll interval fits into the
timeout at most, begins no sleep once the time is up, gives up only when it is, and is late by less than one
interval and what the requests of its last round take. With a negative timeout it never gives up.

`Timely` is what holds of the trace of the loop, and is shown by induction on the course of the loop: a round takes
no sleep, and a sleep that begins in time leaves room for one sleep less.
-/

namespace MessageBus

/-! ## The poll interval -/

theorem Settings.integer?_eq_ok {environment file : Variables} {name : Text} {least n : Int}
    {greatest : Option Int} (h : integer? environment file name least greatest = .ok (some n)) : least ≤ n := by
  unfold integer? at h
  split at h
  · cases h
  · have hchecked := Checked.under_eq_ok.mp h
    split at hchecked
    · cases hchecked
    · split at hchecked
      · simp [Checked.fail] at hchecked
      · split at hchecked
        · simp [Checked.fail] at hchecked
        · next hleast _ =>
          cases hchecked
          exact Int.not_lt.mp hleast

theorem Settings.interval_of_load {environment file : Variables} {s : Settings} {n : Int}
    (h : load environment file = .ok s) (hn : s.interval = some n) : 1 ≤ n := by
  obtain ⟨_, _, hfirst, _, rfl⟩ := Checked.apply_eq_ok.mp h
  obtain ⟨_, interval, hright, hinterval, rfl⟩ := Checked.apply_eq_ok.mp hfirst
  cases hright
  subst hn
  exact integer?_eq_ok hinterval

/-- The interval between two polls, in milliseconds, of which there is one at least. -/
structure Connector.Paced (c : Connector) (ms : Rat) : Prop where
  interval : c.interval.toRat? = some ms
  least : 1 ≤ ms

theorem Connector.paced_of_interval {environment file : Variables} {s : Settings}
    (hs : Settings.load environment file = .ok s) {c : Connector} (hc : c.interval = .int (s.interval.getD 1000)) :
    ∃ ms, c.Paced ms := by
  refine ⟨(s.interval.getD 1000 : Int), by rw [hc]; rfl, ?_⟩
  cases hn : s.interval with
  | none => norm_num
  | some n => exact_mod_cast Settings.interval_of_load hs hn

/-- A connector built from settings polls no more often than every millisecond. -/
theorem Connector.paced_of_settings {σ : Type} {environment file : Variables} {s : Settings}
    (hs : Settings.load environment file = .ok s) {c : Connector} {wait : Value} {options : ClientOptions}
    {clients : Bool} {w v : World σ}
    (hc : (build (Command.intOrNull s.interval) wait options clients).run w = .ok c v) : ∃ ms, c.Paced ms := by
  refine paced_of_interval hs ?_
  cases hn : s.interval <;> cases clients <;> (rw [hn] at hc; cases hc; rfl)

namespace Action

variable {σ : Type} {c : Connector} {queue url : Value} {timeout : Int} {start ms : Rat}

/-! ## The loop -/

theorem slept_inj {w : World σ} {ms ms' : Rat} (h : w.slept ms = w.slept ms') : ms = ms' := by
  have htrace := congrArg World.trace h
  rw [World.trace_slept, World.trace_slept, List.append_cancel_left_eq] at htrace
  injection htrace with hentry
  injection hentry with _ _ hevent
  injection hevent

/-- A sleep of a poll interval takes just as long. -/
theorem run_sleep_paced {ms' : Rat} (hpaced : c.Paced ms) {w : World σ}
    (h : (sleep c.interval).run w = .ok () (w.slept ms')) : ms' = ms ∧ w.patience ≠ 0 := by
  obtain ⟨_, hpause, hp, hslept⟩ := run_sleep_eq_ok.mp h
  obtain rfl := slept_inj hslept
  exact ⟨Option.some.inj ((Value.pause_eq_ok hpause).1.symm.trans hpaced.interval), hp⟩

/-- What a timeout that is not negative promises of a course of the loop. -/
structure Timely (ms : Rat) (timeout : Int) (start : Rat) (w : World σ) (es : List Entry)
    (r : EStateM.Result Fault (World σ) (Option Value)) : Prop where
  sleeps : sleeps es ≤ ⌈(timeout - (w.elapsed - start)) / ms⌉₊
  early : ∀ e ∈ es, e.isSleep = true → e.time - start < timeout
  late : ∀ v, r = .ok none v → timeout ≤ v.elapsed - start
  soon : ∀ v, r = .ok none v → 0 < MessageBus.sleeps es →
    v.elapsed - start < timeout + ms + requestTime (lastRound es)
  /-- Without a sleep there is nothing but the requests that took time. -/
  clock : ∀ a v, r = .ok a v → MessageBus.sleeps es = 0 → v.elapsed = w.elapsed + requestTime es
  patience : ∀ v, r = .error .impatient v → MessageBus.sleeps es = w.patience + 1

/-- While the time is not up there is room for one more sleep. -/
theorem sleeps_before {rest : Rat} (hpos : 0 < rest) (hms : 1 ≤ ms) : ⌈(rest - ms) / ms⌉₊ + 1 ≤ ⌈rest / ms⌉₊ := by
  have hmspos : 0 < ms := by linarith
  have hone : (rest - ms) / ms = rest / ms - 1 := by field_simp
  have hceil : 0 < ⌈rest / ms⌉₊ := Nat.ceil_pos.mpr (div_pos hpos hmspos)
  rw [hone, Nat.ceil_sub_one]
  omega

theorem sleeps_slept (w : World σ) (ms : Rat) (es later : List Entry) :
    sleeps (es ++ w.now (.sleep ms) :: later) = sleeps es + (sleeps later + 1) := by
  have hcons : sleeps (w.now (.sleep ms) :: later) = sleeps later + 1 := List.countP_cons_of_pos rfl
  rw [sleeps_append, hcons]

variable [Service σ]

theorem sleeps_room {w v : World σ} {es later : List Entry} (hround : Passes w es v) (hms : 1 ≤ ms)
    (hearly : v.elapsed - start < timeout)
    (hlater : sleeps later ≤ ⌈(timeout - ((v.slept ms).elapsed - start)) / ms⌉₊) :
    sleeps (es ++ v.now (.sleep ms) :: later) ≤ ⌈(timeout - (w.elapsed - start)) / ms⌉₊ := by
  have hslept : timeout - ((v.slept ms).elapsed - start) = timeout - (v.elapsed - start) - ms := by
    have helapsed : (v.slept ms).elapsed = v.elapsed + ms := rfl
    rw [helapsed]
    ring
  have hroom := sleeps_before (sub_pos.mpr hearly) hms
  have hrest : (timeout - (v.elapsed - start)) / ms ≤ (timeout - (w.elapsed - start)) / ms :=
    div_le_div_of_nonneg_right (by linarith [hround.later]) (by linarith)
  rw [hslept] at hlater
  calc sleeps (es ++ v.now (.sleep ms) :: later) = sleeps later + 1 := by rw [sleeps_slept, hround.awake, zero_add]
    _ ≤ ⌈(timeout - (v.elapsed - start) - ms) / ms⌉₊ + 1 := Nat.add_le_add_right hlater 1
    _ ≤ ⌈(timeout - (v.elapsed - start)) / ms⌉₊ := hroom
    _ ≤ _ := Nat.ceil_mono hrest

theorem early_slept {w v : World σ} {es later : List Entry} (hround : Passes w es v)
    (hearly : v.elapsed - start < timeout)
    (hlater : ∀ e ∈ later, e.isSleep = true → e.time - start < timeout) :
    ∀ e ∈ es ++ v.now (.sleep ms) :: later, e.isSleep = true → e.time - start < timeout := by
  intro e he hsleep
  rcases List.mem_append.mp he with he | he
  · exact absurd hsleep (not_isSleep hround.awake e he)
  · rcases List.mem_cons.mp he with rfl | he
    · exact hearly
    · exact hlater e he hsleep

theorem Timely.round {w : World σ} {es : List Entry} {r : EStateM.Result Fault (World σ) (Option Value)}
    (hr : (Action.round c queue url).run w = r) (hround : Passes w es (left r))
    (hlate : ∀ v, r = .ok none v → timeout ≤ v.elapsed - start) : Timely ms timeout start w es r where
  sleeps := by simp [hround.awake]
  early e he hsleep := absurd hsleep (not_isSleep hround.awake e he)
  late := hlate
  soon v _ hpos := by simp [hround.awake] at hpos
  clock a v hv _ := by subst hv; exact hround.elapsed
  patience v hv := absurd (hr.trans hv) (round_patient c queue url w v)

theorem Timely.refused {w v : World σ} {es : List Entry} {f : Fault} (hround : Passes w es v) (hf : f ≠ .impatient) :
    Timely ms timeout start w es (.error f v) where
  sleeps := by simp [hround.awake]
  early e he hsleep := absurd hsleep (not_isSleep hround.awake e he)
  late := nofun
  soon := nofun
  clock := nofun
  patience _ hv := absurd (EStateM.Result.error.inj hv).1 hf

theorem Timely.halt {w v : World σ} {es : List Entry} (hround : Passes w es v) (hms : 1 ≤ ms)
    (hearly : v.elapsed - start < timeout) (hpatience : v.patience = w.patience) (hp : v.patience = 0) :
    Timely ms timeout start w (es ++ [v.now (.sleep ms)]) (.error .impatient (v.record (.sleep ms))) where
  sleeps := sleeps_room hround hms hearly (Nat.zero_le _)
  early := early_slept hround hearly (by simp)
  late := nofun
  soon := nofun
  clock := nofun
  patience _ _ := by rw [sleeps_slept, hround.awake, ← hpatience, hp]; rfl

theorem Timely.again {w v : World σ} {es later : List Entry}
    {r : EStateM.Result Fault (World σ) (Option Value)} (hround : Passes w es v) (hms : 1 ≤ ms)
    (hearly : v.elapsed - start < timeout) (hpatience : v.patience = w.patience) (hp : v.patience ≠ 0)
    (h : Timely ms timeout start (v.slept ms) later r) :
    Timely ms timeout start w (es ++ v.now (.sleep ms) :: later) r where
  sleeps := sleeps_room hround hms hearly h.sleeps
  early := early_slept hround hearly h.early
  late := h.late
  soon u hu _ := by
    by_cases hlater : 0 < MessageBus.sleeps later
    · rw [List.append_cons, lastRound_append hlater]
      exact h.soon u hu hlater
    · -- the sleep is the last one, so the time from its beginning on is one interval and the last round
      have hzero : MessageBus.sleeps later = 0 := Nat.eq_zero_of_not_pos hlater
      have helapsed : u.elapsed = v.elapsed + ms + requestTime later := h.clock _ u hu hzero
      rw [lastRound_sleep rfl hzero]
      linarith
  clock _ _ _ hzero := by rw [sleeps_slept] at hzero; omega
  patience u hu := by
    have hlater := h.patience u hu
    rw [World.patience_slept] at hlater
    rw [sleeps_slept, hround.awake, hlater]
    omega

/-- Every course of the loop is timely, by induction on the course. -/
theorem Awaits.timely (hpaced : c.Paced ms) (hnonneg : 0 ≤ timeout) {w : World σ} {es : List Entry}
    {r : EStateM.Result Fault (World σ) (Option Value)} (h : Awaits c queue url timeout start w es r)
    (hforward : Service.Forward w.service) : Timely ms timeout start w es r := by
  have hearly {v : World σ} (hd : ¬ Due timeout start v) : v.elapsed - start < timeout :=
    not_le.mp fun hle => hd ⟨hnonneg, hle⟩
  have hpatience {w v : World σ} {a : Option Value} (hr : (Action.round c queue url).run w = .ok a v) :
      v.patience = w.patience := by
    have hframe := (roundEnds c queue url w).frame
    rw [hr] at hframe
    exact hframe.1
  induction h with
  | fault hr hes => exact .round hr ((round_of_trace hr hes).passes hforward) nofun
  | record hr hes => exact .round hr ((round_of_trace hr hes).passes hforward) nofun
  | late hr hes hd =>
    refine .round hr ((round_of_trace hr hes).passes hforward) fun v hv => ?_
    cases hv
    exact hd.2
  | halt hr hes hd hs hb hbegun =>
    have hround := (round_of_trace hr hes).passes hforward
    have hlong : 0 ≤ ms := by linarith [hpaced.least]
    obtain ⟨⟨_, rfl⟩, rfl⟩ | ⟨hp, rfl, rfl⟩ := run_sleep_halted hpaced.interval hlong hs
    · obtain rfl := List.self_eq_append_right.mp hb
      rw [List.append_nil]
      exact .refused hround (by simp)
    · rw [World.trace_record] at hb
      rw [← List.append_cancel_left hb]
      exact .halt hround hpaced.least (hearly hd) (hpatience hr) hp
  | again hr hes hd hs rest ih =>
    have hround := (round_of_trace hr hes).passes hforward
    obtain ⟨rfl, hp⟩ := run_sleep_paced hpaced hs
    exact .again hround hpaced.least (hearly hd) (hpatience hr) hp (ih hround.forward)

/-- No round polls twice, and there is a sleep between two rounds. -/
theorem Awaits.polls_le {w : World σ} {es : List Entry} {r : EStateM.Result Fault (World σ) (Option Value)}
    (h : Awaits c queue url timeout start w es r) : polls es ≤ sleeps es + 1 := by
  have hround {w : World σ} {es : List Entry} {r : EStateM.Result Fault (World σ) (Option Value)}
      (hr : (Action.round c queue url).run w = r) (hes : (left r).trace = w.trace ++ es) : polls es ≤ 1 :=
    (round_of_trace hr hes).polls_le
  induction h with
  | fault hr hes => exact (hround hr hes).trans (Nat.le_add_left 1 _)
  | record hr hes => exact (hround hr hes).trans (Nat.le_add_left 1 _)
  | late hr hes hd => exact (hround hr hes).trans (Nat.le_add_left 1 _)
  | @halt w v u es begun f hr hes hd hs hb hbegun =>
    have hnone : polls begun = 0 := by
      refine List.countP_eq_zero.mpr fun e he => ?_
      obtain ⟨_, rfl⟩ := hbegun e he
      exact Bool.false_ne_true
    have hround := hround hr hes
    rw [polls_append, hnone]
    omega
  | @again w v es later ms' r hr hes hd hs rest ih =>
    have hsleep : polls (v.now (.sleep ms') :: later) = polls later := List.countP_cons_of_neg Bool.false_ne_true
    have hround := hround hr hes
    rw [polls_append, sleeps_slept, hsleep]
    omega

theorem Awaits.polls_pos {w : World σ} {es : List Entry} {r : EStateM.Result Fault (World σ) (Option Value)}
    (h : Awaits c queue url timeout start w es r) (hw : w.running = true) : 0 < polls es := by
  have hround {es : List Entry} {r : EStateM.Result Fault (World σ) (Option Value)}
      (hr : (Action.round c queue url).run w = r) (hes : (left r).trace = w.trace ++ es) : 0 < polls es :=
    (round_of_trace hr hes).polls_pos hw
  cases h with
  | fault hr hes => exact hround hr hes
  | record hr hes => exact hround hr hes
  | late hr hes hd => exact hround hr hes
  | halt hr hes hd hs hb hbegun =>
    rw [polls_append]
    exact Nat.add_pos_left (hround hr hes) _
  | again hr hes hd hs rest =>
    rw [polls_append]
    exact Nat.add_pos_left (hround hr hes) _

/-- With a negative timeout the loop never gives up. -/
theorem Awaits.persists (hneg : timeout < 0) {w : World σ} {es : List Entry}
    {r : EStateM.Result Fault (World σ) (Option Value)} (h : Awaits c queue url timeout start w es r) :
    ∀ v, r ≠ .ok none v := by
  induction h with
  | fault hr hes => exact nofun
  | record hr hes => exact nofun
  | late hr hes hd => exact absurd hd.1 (Int.not_le.mpr hneg)
  | halt hr hes hd hs hb hbegun => exact nofun
  | again hr hes hd hs rest ih => exact ih

/-! ## The whole receive -/

omit [Service σ] in
theorem run_handOver_eq_none {a : Option Value} {w v : World σ} (h : (handOver queue a).run w = .ok none v) :
    a = none ∧ v = w := by
  have hends := handOverEnds queue a w
  rw [h] at hends
  cases hends
  exact ⟨rfl, rfl⟩

theorem ResolveEnds.patience {w : World σ} {r : EStateM.Result Fault (World σ) Value}
    (h : ResolveEnds queue w r) : (left r).patience = w.patience := by
  cases h with
  | absent => rfl
  | other => rfl
  | wordless => rfl
  | queue _ _ hr => cases hr <;> rfl

theorem run_receive_ends {w v u : World σ} {r : EStateM.Result Fault (World σ) (Option Value)}
    (hresolve : (resolveQueue queue).run w = .ok url v)
    (hloop : (awaiting c queue url timeout w.elapsed).run v = r) :
    ((receive c queue timeout).run w = .ok none u → r = .ok none u) ∧
      ((receive c queue timeout).run w = .error .impatient u → r = .error .impatient u) := by
  rw [run_receive_of_resolved c timeout hresolve]
  subst hloop
  cases hr : (awaiting c queue url timeout w.elapsed).run v with
  | error f u' =>
    rw [run_bind_of_error hr]
    constructor
    · exact nofun
    · intro h
      cases h
      rfl
  | ok a u' =>
    rw [run_bind_of_ok hr]
    constructor
    · intro h
      obtain ⟨rfl, rfl⟩ := run_handOver_eq_none h
      rfl
    · exact fun h => absurd h (handOver_patient queue a u' u)

/-- What a timeout that is not negative promises of a receive: of its result, and of what it adds to the trace
of a world. -/
structure InTime (ms : Rat) (timeout : Int) (w : World σ) (es : List Entry)
    (r : EStateM.Result Fault (World σ) (Option Ref)) : Prop where
  sleeps : sleeps es ≤ ⌈timeout / ms⌉₊
  polls : polls es ≤ ⌈timeout / ms⌉₊ + 1
  /-- With patience for these sleeps the receive ends by itself. -/
  ends : ⌈timeout / ms⌉₊ ≤ w.patience → ∀ v, r ≠ .error .impatient v
  /-- No sleep begins once the time is up. -/
  early : ∀ e ∈ es, e.isSleep = true → e.time - w.elapsed < timeout
  /-- Nothing is returned only once the time is up. -/
  late : ∀ v, r = .ok none v → timeout ≤ v.elapsed - w.elapsed
  /-- It is late by less than one interval and what the requests of the last round took. -/
  soon : ∀ v, r = .ok none v → 0 < MessageBus.sleeps es →
    v.elapsed - w.elapsed < timeout + ms + requestTime (lastRound es)

theorem InTime.of_unresolved {w v : World σ} {looked : List Entry} {f : Fault} (hv : LookedUp w looked v)
    (hr : (resolveQueue queue).run w = .error f v) (hforward : Service.Forward w.service) :
    InTime ms timeout w looked (.error f v) where
  sleeps := by simp [(hv.passes hforward).awake]
  polls := by simp [hv.polls]
  ends _ u hu := by
    cases hu
    exact resolveQueue_patient queue w v hr
  early e he hsleep := absurd hsleep (not_isSleep (hv.passes hforward).awake e he)
  late := nofun
  soon := nofun

theorem InTime.of_resolved (hms : 1 ≤ ms) {w v : World σ} {looked es logs : List Entry}
    {r : EStateM.Result Fault (World σ) (Option Value)} (hforward : Service.Forward w.service)
    (hv : LookedUp w looked v) (hresolve : (resolveQueue queue).run w = .ok url v)
    (hcourse : Awaits c queue url timeout w.elapsed v es r) (htimely : Timely ms timeout w.elapsed v es r)
    (hlogs : ∀ e ∈ logs, e.isLog) (hnone : ∀ u, r = .ok none u → logs = []) :
    InTime ms timeout w (looked ++ (es ++ logs)) ((receive c queue timeout).run w) := by
  have hlooked := hv.passes hforward
  have hsleeps : MessageBus.sleeps (looked ++ (es ++ logs)) = MessageBus.sleeps es := by
    simp [hlooked.awake, sleeps_of_isLog hlogs]
  have hpolls : MessageBus.polls (looked ++ (es ++ logs)) = MessageBus.polls es := by
    simp [hv.polls, polls_of_isLog hlogs]
  have hbound : MessageBus.sleeps es ≤ ⌈timeout / ms⌉₊ := by
    refine htimely.sleeps.trans (Nat.ceil_mono (div_le_div_of_nonneg_right ?_ (by linarith)))
    linarith [hlooked.later]
  have hends {u : World σ} := run_receive_ends (u := u) hresolve hcourse.run
  refine ⟨hsleeps ▸ hbound, ?_, ?_, ?_, ?_, ?_⟩
  · rw [hpolls]
    exact hcourse.polls_le.trans (Nat.add_le_add_right hbound 1)
  · intro hpatience u hu
    have hcut := htimely.patience u (hends.2 hu)
    have hsame : v.patience = w.patience := by
      have hframe := (resolveEnds queue w).patience
      rwa [hresolve] at hframe
    omega
  · intro e he hsleep
    rcases List.mem_append.mp he with he | he
    · exact absurd hsleep (not_isSleep hlooked.awake e he)
    · rcases List.mem_append.mp he with he | he
      · exact htimely.early e he hsleep
      · exact absurd hsleep (not_isSleep (sleeps_of_isLog hlogs) e he)
  · exact fun u hu => htimely.late u (hends.1 hu)
  · intro u hu hpos
    rw [hsleeps] at hpos
    have hlate := htimely.soon u (hends.1 hu) hpos
    rwa [hnone u (hends.1 hu), List.append_nil, lastRound_append hpos]

theorem lookedUp_of_resolved {w v : World σ} (h : (resolveQueue queue).run w = .ok url v) :
    ∃ looked, LookedUp w looked v := by
  have hlooked := (resolveEnds queue w).lookedUp
  rwa [h] at hlooked

/-- What a receive with a resolved queue adds to the trace: what the lookup does, what the loop does, and log
lines if there is something to hand over. -/
theorem heard_of_resolved {w v : World σ} {looked es : List Entry}
    {r : EStateM.Result Fault (World σ) (Option Value)} (hlooked : LookedUp w looked v)
    (hresolve : (resolveQueue queue).run w = .ok url v)
    (hcourse : Awaits c queue url timeout w.elapsed v es r) :
    ∃ logs, heard (receive c queue timeout) w = looked ++ (es ++ logs) ∧ (∀ e ∈ logs, e.isLog) ∧
      ∀ u, r = .ok none u → logs = [] := by
  obtain ⟨logs, htrace, hlogs, _⟩ := receive_trace hresolve hcourse
  refine ⟨logs, heard_eq (by rw [htrace, hlooked.trace, List.append_assoc]), hlogs, fun u hu => ?_⟩
  subst hu
  have hloop : u.trace = v.trace ++ es := hcourse.trace
  rw [run_receive_of_resolved c timeout hresolve, run_bind_of_ok hcourse.run] at htrace
  have hnone : u.trace = v.trace ++ (es ++ logs) := htrace
  rw [hloop, List.append_cancel_left_eq] at hnone
  simpa using hnone

theorem receive_inTime (hpaced : c.Paced ms) (hnonneg : 0 ≤ timeout) {w : World σ}
    (hforward : Service.Forward w.service) :
    InTime ms timeout w (heard (receive c queue timeout) w) ((receive c queue timeout).run w) := by
  cases hresolve : (resolveQueue queue).run w with
  | error f v =>
    obtain ⟨looked, hlooked⟩ := (resolveEnds queue w).lookedUp
    rw [hresolve] at hlooked
    have hrun := run_receive_of_unresolved c timeout hresolve
    have hheard : heard (receive c queue timeout) w = looked := heard_eq (by rw [hrun]; exact hlooked.trace)
    rw [hheard, hrun]
    exact .of_unresolved hlooked hresolve hforward
  | ok url v =>
    obtain ⟨looked, hlooked⟩ := lookedUp_of_resolved hresolve
    obtain ⟨es, hcourse⟩ := awaits c queue url timeout w.elapsed v
    obtain ⟨logs, hheard, hlogs, hnone⟩ := heard_of_resolved hlooked hresolve hcourse
    rw [hheard]
    exact .of_resolved hpaced.least hforward hlooked hresolve hcourse
      (hcourse.timely hpaced hnonneg (hlooked.passes hforward).forward) hlogs hnone

/-- The timeout of a receive is honoured. A receive with a timeout sleeps as often as the poll interval fits
into it at most and polls once more than that at most, begins no sleep once the time is up, counted from its
beginning, returns nothing only when it is, and then in time; a receive with a negative timeout never returns
nothing. Each of them polls if the connection is running when the loop starts. All this is so for a poll interval
of a millisecond or more, as connectors built from settings have. -/
theorem honours_timeout (c : Connector) (queue : Value) (timeout : Int) {w : World σ}
    (hforward : Service.Forward w.service) :
    (0 ≤ timeout → ∀ ms, c.Paced ms →
        InTime ms timeout w (heard (receive c queue timeout) w) ((receive c queue timeout).run w)) ∧
      (timeout < 0 → ∀ v, (receive c queue timeout).run w ≠ .ok none v) ∧
      (∀ url v, (resolveQueue queue).run w = .ok url v → v.running = true →
        0 < polls (heard (receive c queue timeout) w)) ∧
      ∀ environment file s, Settings.load environment file = .ok s → ∀ wait options clients (v v' : World σ),
        (Connector.build (Command.intOrNull s.interval) wait options clients).run v = .ok c v' →
          ∃ ms, c.Paced ms := by
  refine ⟨fun hnonneg ms hpaced => receive_inTime hpaced hnonneg hforward, ?_, ?_, ?_⟩
  · intro hneg u hu
    cases hresolve : (resolveQueue queue).run w with
    | error f v => simp [run_receive_of_unresolved c timeout hresolve] at hu
    | ok url v =>
      obtain ⟨_, hcourse⟩ := awaits c queue url timeout w.elapsed v
      exact hcourse.persists hneg u ((run_receive_ends hresolve rfl).1 hu)
  · intro url v hresolve hrunning
    obtain ⟨looked, hlooked⟩ := lookedUp_of_resolved hresolve
    obtain ⟨es, hcourse⟩ := awaits c queue url timeout w.elapsed v
    obtain ⟨logs, hheard, _⟩ := heard_of_resolved hlooked hresolve hcourse
    have hpolls := hcourse.polls_pos hrunning
    rw [hheard, polls_append, polls_append]
    omega
  · exact fun _ _ s hs _ _ _ v v' hc => Connector.paced_of_settings hs hc

/-- A world with a bound queue in which nothing waits, and whose service holds each of the first two polls back
for 300 milliseconds. -/
def quiet : World Script :=
  { started := 0, elapsed := 0, timers := [], running := true,
    service := ⟨[("receive_message", [⟨300, none, none⟩, ⟨300, none, none⟩])], 1, [], 0⟩,
    store := ⟨[.queue ⟨.text "queue", .text "orders", .text "https://sqs/orders"⟩]⟩,
    serial := 0, patience := 5, trace := [] }

/-- Two seconds have room for two sleeps of a second, and both are made: the second one begins at 1600
milliseconds. -/
theorem quiet_in_time :
    Service.Forward quiet.service ∧
      InTime 1000 2000 quiet (heard (receive ⟨.int 1000, .null⟩ (.shared 0) 2000) quiet)
        ((receive ⟨.int 1000, .null⟩ (.shared 0) 2000).run quiet) ∧
      sleeps (heard (receive ⟨.int 1000, .null⟩ (.shared 0) 2000) quiet) = 2 ∧
      ∃ v, (receive ⟨.int 1000, .null⟩ (.shared 0) 2000).run quiet = .ok none v := by
  have hforward : Service.Forward quiet.service := by
    refine Script.StepsForward.forward fun m steps hmem step hstep => ?_
    simp only [quiet, List.mem_singleton, Prod.mk.injEq] at hmem
    obtain ⟨_, rfl⟩ := hmem
    simp only [List.mem_cons, List.not_mem_nil, or_false, or_self] at hstep
    subst hstep
    decide
  have hin := (honours_timeout ⟨.int 1000, .null⟩ (.shared 0) 2000 hforward).1 (by decide) 1000
    ⟨rfl, by norm_num⟩
  exact ⟨hforward, hin, by with_unfolding_all rfl, _, by with_unfolding_all rfl⟩

end Action

end MessageBus
