import MessageBus.Proofs.Checks
import MessageBus.World

/-!
# Runs of actions

What the basic actions do to a world, each said once: the reads leave it alone, `Action.perform` leaves
`World.after`, `Action.replace` leaves `World.put`. A run of a longer action is taken apart at its first
part by `Action.run_bind_eq_ok`, and what it adds to the trace is `Action.heard`.
-/

namespace MessageBus

/-- The entry is a log line. -/
def Entry.isLog (e : Entry) : Prop := ∃ level logger t, e.event = .log level logger t

namespace World

variable {σ : Type}

/-- The reply of the service to a request made now. -/
def reply [Service σ] (w : World σ) (r : Request) : Reply := (Service.answer r w.service).1

/-- The world with a request made, but without the answer on record. -/
def replied [Service σ] (w : World σ) (r : Request) : World σ :=
  let v := { w.record (.call r) with service := (Service.answer r w.service).2 }.advance (w.reply r).takes
  { v with running := (w.reply r).flip.getD v.running }

/-- The world with a request made and answered. -/
def after [Service σ] (w : World σ) (r : Request) : World σ :=
  (w.replied r).record (.answer r (w.reply r).outcome)

/-- The world with a shared object replaced. -/
def put (w : World σ) (ref : Ref) (o : Object) : World σ := { w with store := w.store.replace ref o }

/-- The world after a sleep of so many milliseconds. -/
def slept (w : World σ) (ms : Rat) : World σ :=
  { (w.record (.sleep ms)).advance ms with patience := w.patience - 1 }

/-- The entry of an event that happens now. -/
def now (w : World σ) (e : Event) : Entry := ⟨w.elapsed, w.running, e⟩

theorem isLog_now (w : World σ) (level : Level) (logger : Logger) (t : Text) :
    (w.now (.log level logger t)).isLog := ⟨level, logger, t, rfl⟩

/-- The entries of a log line, none if it cannot be put into words. -/
def noted (w : World σ) (level : Level) (logger : Logger) (line : Except Fault Text) : List Entry :=
  line.toOption.toList.map fun t => w.now (.log level logger t)

/-- The world with a log line written, if it can be put into words. -/
def note (w : World σ) (level : Level) (logger : Logger) (line : Except Fault Text) : World σ :=
  { w with trace := w.trace ++ w.noted level logger line }

theorem isLog_of_mem_noted {w : World σ} {level : Level} {logger : Logger} {line : Except Fault Text} {e : Entry}
    (h : e ∈ w.noted level logger line) : e.isLog := by
  obtain ⟨t, -, rfl⟩ := List.mem_map.mp h
  exact w.isLog_now level logger t

@[simp] theorem trace_note (w : World σ) (level : Level) (logger : Logger) (line : Except Fault Text) :
    (w.note level logger line).trace = w.trace ++ w.noted level logger line := rfl
@[simp] theorem store_note (w : World σ) (level : Level) (logger : Logger) (line : Except Fault Text) :
    (w.note level logger line).store = w.store := rfl
@[simp] theorem service_note (w : World σ) (level : Level) (logger : Logger) (line : Except Fault Text) :
    (w.note level logger line).service = w.service := rfl

theorem note_error (w : World σ) (level : Level) (logger : Logger) (f : Fault) :
    w.note level logger (.error f) = w := by
  simp [note, noted, Except.toOption]

@[simp] theorem trace_record (w : World σ) (e : Event) : (w.record e).trace = w.trace ++ [w.now e] := rfl
@[simp] theorem patience_record (w : World σ) (e : Event) : (w.record e).patience = w.patience := rfl

@[simp] theorem trace_put (w : World σ) (ref : Ref) (o : Object) : (w.put ref o).trace = w.trace := rfl
@[simp] theorem store_put (w : World σ) (ref : Ref) (o : Object) :
    (w.put ref o).store = w.store.replace ref o := rfl
@[simp] theorem service_put (w : World σ) (ref : Ref) (o : Object) : (w.put ref o).service = w.service := rfl

@[simp] theorem trace_slept (w : World σ) (ms : Rat) : (w.slept ms).trace = w.trace ++ [w.now (.sleep ms)] := rfl
@[simp] theorem patience_slept (w : World σ) (ms : Rat) : (w.slept ms).patience = w.patience - 1 := rfl

section requests

variable [Service σ]

/-- The entries of a request and its answer. -/
def exchange (w : World σ) (r : Request) : List Entry :=
  [w.now (.call r), (w.after r).now (.answer r (w.reply r).outcome)]

@[simp] theorem trace_after (w : World σ) (r : Request) : (w.after r).trace = w.trace ++ w.exchange r := by
  simp [exchange, after, replied, now, advance, record]

@[simp] theorem store_after (w : World σ) (r : Request) : (w.after r).store = w.store := rfl
@[simp] theorem service_after (w : World σ) (r : Request) :
    (w.after r).service = (Service.answer r w.service).2 := rfl

end requests

end World

/-! ## Lengths of sleeps -/

namespace Value

theorem milliseconds_eq_ok {interval : Value} {ms : Rat} :
    interval.milliseconds = .ok ms ↔ interval.toRat? = some ms := by
  unfold milliseconds
  split
  · simp [toRat?, Double.toRat?]
  · simp [toRat?, Double.toRat?]
  · split <;> simp [*]

/-- A sleep that is not refused takes as long as the interval says. -/
theorem pause_eq_ok {tooLong : Option Rat} {interval : Value} {ms : Rat} (h : interval.pause tooLong = .ok ms) :
    interval.toRat? = some ms ∧ 0 ≤ ms := by
  obtain ⟨millis, hmillis, h⟩ := bind_eq_ok.mp h
  split at h
  · cases h
  · split at h
    · cases h
    · split at h
      · cases h
      · next hneg =>
        cases h
        exact ⟨milliseconds_eq_ok.mp hmillis, Rat.not_lt.mp hneg⟩

/-- A sleep of a length that is not negative is refused only if it is too long. -/
theorem pause_eq_error {tooLong : Option Rat} {interval : Value} {ms : Rat} {f : Fault}
    (hms : interval.toRat? = some ms) (hnonneg : 0 ≤ ms) (h : interval.pause tooLong = .error f) :
    ∃ message, f = .overflow message := by
  have hmillis := milliseconds_eq_ok.mpr hms
  obtain hfault | ⟨millis, hsame, h⟩ := bind_eq_error.mp h
  · cases hfault.symm.trans hmillis
  · cases hsame.symm.trans hmillis
    split at h
    · exact ⟨_, (Except.error.inj h).symm⟩
    · split at h
      · exact ⟨_, (Except.error.inj h).symm⟩
      · rw [if_neg (Rat.not_lt.mpr hnonneg)] at h
        cases h

theorem pause_faults {tooLong : Option Rat} {interval : Value} {f : Fault} (h : interval.pause tooLong = .error f) :
    f = .type ∨ (∃ message, f = .outOfRange message) ∨ ∃ message, f = .overflow message := by
  obtain hmillis | ⟨_, -, h⟩ := bind_eq_error.mp h
  · unfold milliseconds at hmillis
    split at hmillis
    · exact .inr (.inl ⟨_, (Except.error.inj hmillis).symm⟩)
    · exact .inr (.inr ⟨_, (Except.error.inj hmillis).symm⟩)
    · split at hmillis
      · cases hmillis
      · exact .inl (Except.error.inj hmillis).symm
  · split at h
    · exact .inr (.inr ⟨_, (Except.error.inj h).symm⟩)
    · split at h
      · exact .inr (.inr ⟨_, (Except.error.inj h).symm⟩)
      · split at h
        · exact .inr (.inl ⟨_, (Except.error.inj h).symm⟩)
        · cases h

end Value

namespace Action

variable {σ α β : Type}

/-! ## Reads and replacements -/

@[simp] theorem run_record (e : Event) (w : World σ) : (record e).run w = .ok () (w.record e) := rfl

@[simp] theorem run_log (level : Level) (logger : Logger) (t : Text) (w : World σ) :
    (log level logger t).run w = .ok () (w.record (.log level logger t)) := rfl

theorem run_get (w : World σ) : (get : Action σ (World σ)).run w = .ok w w := rfl

@[simp] theorem run_find? (x : Value) (w : World σ) : (find? x).run w = .ok (w.store.find? x) w := rfl

@[simp] theorem run_expanded (x : Value) (w : World σ) :
    (expanded x).run w = .ok (w.store.expanded x) w := rfl

@[simp] theorem run_words (x : Value) (w : World σ) : (words x).run w = .ok (w.store.expanded x).inWords w := rfl

@[simp] theorem run_logTold (level : Level) (logger : Logger) (line : Except Fault Text) (w : World σ) :
    (logTold level logger line).run w = .ok () (w.note level logger line) := by
  cases line with
  | ok t => rfl
  | error f =>
    rw [World.note_error]
    rfl

@[simp] theorem run_typeName (x : Value) (w : World σ) :
    (typeName x).run w = .ok (w.store.typeName x) w := rfl

@[simp] theorem run_replace (ref : Ref) (o : Object) (w : World σ) :
    (replace ref o).run w = .ok () (w.put ref o) := rfl

@[simp] theorem run_add (o : Object) (w : World σ) :
    (add o).run w = .ok (w.store.add o).1 { w with store := (w.store.add o).2 } := rfl

@[simp] theorem run_addMessage (m : Message (Option Destination)) (w : World σ) :
    (addMessage m).run w = .ok (w.store.addMessage m).1 { w with store := (w.store.addMessage m).2 } := rfl

@[simp] theorem run_lift_ok (a : α) (w : World σ) : (lift (.ok a)).run w = .ok a w := rfl

@[simp] theorem run_lift_error (f : Fault) (w : World σ) :
    (lift (.error f) : Action σ α).run w = .error f w := rfl

theorem run_lift_of_error {x : Except Fault α} {f : Fault} (h : x = .error f) (w : World σ) :
    (lift x).run w = .error f w := by
  rw [h]
  rfl

theorem run_shown (x : Value) (w : World σ) : (shown x).run w = (lift (w.store.expanded x).inWords).run w := rfl

@[simp] theorem run_throw (f : Fault) (w : World σ) : (throw f : Action σ α).run w = .error f w := rfl

@[simp] theorem run_refuse (kind : ErrorKind) (context : Text) (w : World σ) :
    (refuse kind context : Action σ α).run w = .error (.bus ⟨kind, context, .none⟩) w := rfl

theorem lift_bind (x : Except Fault α) (f : α → Except Fault β) :
    (lift (x >>= f) : Action σ β) = lift x >>= fun a => lift (f a) := by
  cases x <;> rfl

theorem run_lift_eq_ok {x : Except Fault α} {a : α} {w v : World σ} :
    (lift x).run w = .ok a v ↔ x = .ok a ∧ v = w := by
  cases x with
  | ok b => simp [eq_comm]
  | error f => simp

theorem run_message {ref : Ref} {m : Message Value} {w : World σ}
    (h : w.store.object? ref = some (.message m)) : (message (.shared ref)).run w = .ok (ref, m) w := by
  simp [message, Store.find?, h]

theorem run_message_eq_ok {x : Value} {ref : Ref} {m : Message Value} {w v : World σ} :
    (message x).run w = .ok (ref, m) v ↔
      x = .shared ref ∧ w.store.object? ref = some (.message m) ∧ v = w := by
  constructor
  · intro h
    simp only [message, EStateM.run_bind, run_find?] at h
    split at h
    · next r o ho =>
      simp only [EStateM.run_pure, EStateM.Result.ok.injEq, Prod.mk.injEq] at h
      obtain ⟨⟨rfl, rfl⟩, rfl⟩ := h
      exact ⟨rfl, ho, rfl⟩
    · simp at h
  · rintro ⟨rfl, h, rfl⟩
    exact run_message h

theorem run_changeMessage {ref : Ref} {m m' : Message Value} {w : World σ}
    {f : Message Value → Except Fault (Message Value)}
    (h : w.store.object? ref = some (.message m)) (hf : f m = .ok m') :
    (changeMessage ref f).run w = .ok () (w.put ref (.message m')) := by
  simp [changeMessage, run_message h, hf]

theorem run_changeMessage_error {ref : Ref} {m : Message Value} {w : World σ} {e : Fault}
    {f : Message Value → Except Fault (Message Value)}
    (h : w.store.object? ref = some (.message m)) (hf : f m = .error e) :
    (changeMessage ref f).run w = .error e w := by
  simp [changeMessage, run_message h, hf]

/-! ## Parts of runs -/

theorem run_bind_eq_ok {x : Action σ α} {f : α → Action σ β} {b : β} {w u : World σ} :
    (x >>= f).run w = .ok b u ↔ ∃ a v, x.run w = .ok a v ∧ (f a).run v = .ok b u := by
  rw [EStateM.run_bind]
  cases h : x.run w with
  | ok a v =>
    constructor
    · exact fun hf => ⟨a, v, rfl, hf⟩
    · rintro ⟨a', v', hx, hf⟩
      cases hx
      exact hf
  | error e v => simp

theorem run_bind_of_ok {x : Action σ α} {f : α → Action σ β} {a : α} {w v : World σ}
    (h : x.run w = .ok a v) : (x >>= f).run w = (f a).run v := by
  rw [EStateM.run_bind, h]

theorem run_bind_of_error {x : Action σ α} {f : α → Action σ β} {e : Fault} {w v : World σ}
    (h : x.run w = .error e v) : (x >>= f).run w = .error e v := by
  rw [EStateM.run_bind, h]

/-- The world that a run leaves, with a result or a fault. -/
def left : EStateM.Result Fault (World σ) α → World σ
  | .ok _ v => v
  | .error _ v => v

/-- What a run adds to the trace. -/
def heard (x : Action σ α) (w : World σ) : List Entry := (left (x.run w)).trace.drop w.trace.length

theorem heard_eq {x : Action σ α} {w : World σ} {es : List Entry}
    (h : (left (x.run w)).trace = w.trace ++ es) : heard x w = es := by
  simp [heard, h]

/-! ## Requests -/

section requests

variable [Service σ]

@[simp] theorem run_perform (r : Request) (w : World σ) :
    (perform r).run w = .ok (w.reply r).outcome (w.after r) := rfl

/-- An answered request leaves nothing but the request and its answer. -/
theorem run_request_ok {r : Request} {w : World σ} {answer : Value} (context : Except Fault Text)
    (h : (w.reply r).outcome = .ok answer) : (request context r).run w = .ok answer (w.after r) := by
  simp [request, h]

/-- A failed request is told in its context and leaves a log line. -/
theorem run_request_error {r : Request} {w : World σ} {failure : Failure} (context : Except Fault Text)
    (h : (w.reply r).outcome = .error failure) :
    (request context r).run w =
      match failure.toldIn context with
      | .ok e => .error (.bus e) ((w.after r).record (.log .error .errors e.message))
      | .error f => .error f (w.after r) := by
  simp only [request, run_bind_of_ok (run_perform r w), h]
  cases failure.toldIn context <;> simp

theorem run_request_eq_ok {r : Request} {context : Except Fault Text} {w v : World σ} {answer : Value} :
    (request context r).run w = .ok answer v ↔ (w.reply r).outcome = .ok answer ∧ v = w.after r := by
  cases h : (w.reply r).outcome with
  | ok a => simp [run_request_ok context h, eq_comm]
  | error failure =>
    rw [run_request_error context h]
    cases failure.toldIn context <;> simp

end requests

/-! ## Sleeps -/

theorem run_sleep_fault {interval : Value} {w : World σ} {f : Fault} (h : interval.pause w.tooLong = .error f) :
    (sleep interval).run w = .error f w := by
  rw [sleep, run_bind_of_ok (run_get w), run_bind_of_error (run_lift_of_error h w)]

/-- A sleep of so many milliseconds: none ends without patience for it. -/
theorem run_sleep {interval : Value} {ms : Rat} {w : World σ} (h : interval.pause w.tooLong = .ok ms) :
    (sleep interval).run w =
      if w.patience = 0 then .error .impatient (w.record (.sleep ms)) else .ok () (w.slept ms) := by
  rw [sleep, run_bind_of_ok (run_get w), h, run_bind_of_ok (run_lift_ok ms w), run_bind_of_ok (run_record _ w),
    run_bind_of_ok (run_get _)]
  by_cases hp : w.patience = 0
  · rw [if_pos hp, World.patience_record, if_pos hp, run_throw]
  · rw [if_neg hp, World.patience_record, if_neg hp]
    rfl

theorem run_sleep_eq_ok {interval : Value} {w v : World σ} :
    (sleep interval).run w = .ok () v ↔
      ∃ ms, interval.pause w.tooLong = .ok ms ∧ w.patience ≠ 0 ∧ v = w.slept ms := by
  cases h : interval.pause w.tooLong with
  | error f => simp [run_sleep_fault h]
  | ok ms =>
    rw [run_sleep h]
    by_cases hp : w.patience = 0 <;> simp [hp, eq_comm]

/-- A sleep that does not end leaves the world alone, or its beginning. -/
theorem run_sleep_error {interval : Value} {w v : World σ} {f : Fault} (h : (sleep interval).run w = .error f v) :
    (interval.pause w.tooLong = .error f ∧ v = w) ∨
      ∃ ms, interval.pause w.tooLong = .ok ms ∧ w.patience = 0 ∧ f = .impatient ∧ v = w.record (.sleep ms) := by
  cases hpause : interval.pause w.tooLong with
  | error g =>
    rw [run_sleep_fault hpause] at h
    cases h
    exact .inl ⟨rfl, rfl⟩
  | ok ms =>
    rw [run_sleep hpause] at h
    split at h
    · next hp =>
      cases h
      exact .inr ⟨ms, rfl, hp, rfl, rfl⟩
    · cases h

/-- A sleep of a length that is not negative is too long, which leaves the world alone, or it ends or lacks patience. -/
theorem run_sleep_halted {interval : Value} {ms : Rat} {w v : World σ} {f : Fault}
    (hms : interval.toRat? = some ms) (hnonneg : 0 ≤ ms) (h : (sleep interval).run w = .error f v) :
    ((∃ message, f = .overflow message) ∧ v = w) ∨
      (w.patience = 0 ∧ f = .impatient ∧ v = w.record (.sleep ms)) := by
  obtain ⟨hpause, rfl⟩ | ⟨ms', hpause, hp, rfl, rfl⟩ := run_sleep_error h
  · exact .inl ⟨Value.pause_eq_error hms hnonneg hpause, rfl⟩
  · obtain rfl := Option.some.inj (hms.symm.trans (Value.pause_eq_ok hpause).1)
    exact .inr ⟨hp, rfl, rfl⟩

theorem sleep_begun {interval : Value} {v u : World σ} {f : Fault} (hs : (sleep interval).run v = .error f u) :
    ∃ begun, u.trace = v.trace ++ begun ∧ ∀ e ∈ begun, ∃ ms, e = v.now (.sleep ms) := by
  obtain ⟨-, rfl⟩ | ⟨ms, -, -, -, rfl⟩ := run_sleep_error hs
  · exact ⟨[], by simp, by simp⟩
  · refine ⟨_, World.trace_record .., ?_⟩
    rintro e (_ | ⟨_, ⟨⟩⟩)
    exact ⟨ms, rfl⟩

end Action

end MessageBus
