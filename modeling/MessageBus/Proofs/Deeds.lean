import MessageBus.Proofs.Acknowledging
import MessageBus.Proofs.Clients
import MessageBus.Proofs.Failures

/-!
# Deeds

What a run does beside waiting and logging is told by its deeds: the clients that it builds, its calls with what came
of them, and what it puts out (`deeds`). What happened between two worlds is told in parts (`Does`).
-/

namespace MessageBus

/-! ## Deeds -/

/-- What an entry tells of the deeds of a run. Log lines and sleeps are none, and a request is told with what came
of it. -/
def Entry.deed? (e : Entry) : Option Event :=
  match e.event with
  | .log _ _ _ | .sleep _ | .call _ => none
  | event => some event

/-- The deeds of a trace in order. -/
def deeds (es : List Entry) : List Event := es.filterMap Entry.deed?

@[simp] theorem deeds_append (es es' : List Entry) : deeds (es ++ es') = deeds es ++ deeds es' :=
  List.filterMap_append

theorem deeds_of_isLog {es : List Entry} (h : ∀ e ∈ es, e.isLog) : deeds es = [] := by
  refine List.filterMap_eq_nil_iff.mpr fun e he => ?_
  obtain ⟨_, _, _, hevent⟩ := h e he
  rw [Entry.deed?, hevent]

theorem deeds_append_log {σ : Type} (es : List Entry) (w : World σ) (level : Level) (logger : Logger) (t : Text) :
    deeds (es ++ [w.now (.log level logger t)]) = deeds es :=
  (deeds_append ..).trans (List.append_nil _)

/-- The calls among some deeds. -/
def callsAmong (ds : List Event) : List Call :=
  ds.filterMap fun d => match d with
    | .answer q o => some ⟨q, o⟩
    | _ => none

@[simp] theorem callsAmong_append (ds ds' : List Event) : callsAmong (ds ++ ds') = callsAmong ds ++ callsAmong ds' :=
  List.filterMap_append

@[simp] theorem callsAmong_answer (q : Request) (o : Except Failure Value) (ds : List Event) :
    callsAmong (.answer q o :: ds) = ⟨q, o⟩ :: callsAmong ds := rfl

/-- All calls are deeds. -/
theorem callsAmong_deeds (es : List Entry) : callsAmong (deeds es) = es.filterMap Entry.call? := by
  rw [callsAmong, deeds, List.filterMap_filterMap]
  refine List.filterMap_congr fun e _ => ?_
  obtain ⟨_, _, event⟩ := e
  cases event <;> rfl

/-- The entry of an event on a running connection, of a call that was answered or failed in order if it is one. -/
structure Entry.InOrder (e : Entry) : Prop where
  running : e.running = true
  regular : ∀ c, e.call? = some c → c.Regular

section requests

variable {σ : Type} [Service σ]

@[simp] theorem deeds_exchange (w : World σ) (q : Request) :
    deeds (w.exchange q) = [.answer q (w.reply q).outcome] := rfl

theorem World.inOrder_after {w : World σ} {q : Request} (h : ∀ e ∈ w.exchange q, e.InOrder) :
    (w.after q).running = true ∧ Call.Regular ⟨q, (w.reply q).outcome⟩ := by
  have hanswer := h ((w.after q).now (.answer q (w.reply q).outcome)) (by simp [World.exchange])
  exact ⟨hanswer.running, hanswer.regular _ rfl⟩

end requests

/-! ## Later worlds -/

section later

variable {σ : Type}

/-- A world is later than another, and such are the deeds between them. -/
structure Does (w : World σ) (ds : List Event) (v : World σ) : Prop where
  later : w.trace <+: v.trace
  deeds : deeds (v.since w) = ds

namespace Does

variable {w v u : World σ} {ds ds' : List Event}

theorem of_trace {es : List Entry} (h : v.trace = w.trace ++ es) : Does w (MessageBus.deeds es) v :=
  ⟨⟨es, h.symm⟩, by rw [World.since_eq h]⟩

theorem refl (w : World σ) : Does w [] w := of_trace (List.append_nil _).symm

theorem record {e : Event} (w : World σ) (he : (w.now e).deed? = some e) : Does w [e] (w.record e) := by
  refine ⟨⟨_, (World.trace_record w e).symm⟩, ?_⟩
  rw [World.since_eq (World.trace_record w e), MessageBus.deeds, List.filterMap_cons, he]
  rfl

theorem log (w : World σ) (level : Level) (logger : Logger) (t : Text) :
    Does w [] (w.record (.log level logger t)) :=
  of_trace (World.trace_record w (.log level logger t))

theorem trans (h : Does w ds v) (h' : Does v ds' u) : Does w (ds ++ ds') u :=
  ⟨h.later.trans h'.later, by rw [World.since_trans h.later h'.later, deeds_append, h.deeds, h'.deeds]⟩

end Does

end later

namespace Action

variable {σ α : Type}

theorem later_left {x : Action σ α} (h : Clientless x) (w : World σ) : w.trace <+: (left (x.run w)).trace := by
  cases hr : x.run w with
  | ok a v => exact (h.ok w a v hr).later
  | error e v => exact (h.error w e v hr).later

end Action

namespace Command

variable {σ α : Type}

/-! ## Commands -/

/-- The calls of a command are among its deeds. -/
theorem madeBy_eq_callsAmong {w : World σ} {r : Ending × World σ} (h : w.trace <+: r.2.trace) :
    madeBy w r = callsAmong (deeds (r.2.since w)) := by
  have hmade : r.2.made = w.made ++ (r.2.since w).filterMap Entry.call? := by
    rw [World.made, World.trace_eq_since h, List.filterMap_append]
    rfl
  rw [madeBy, hmade, List.drop_left, callsAmong_deeds]

theorem lastLine_ne (line : Text) : lastLine line ≠ ⟨1, none⟩ := by
  unfold lastLine
  split <;> nofun

/-- How a command ends whose body ran so. -/
def ended : EStateM.Result Abort (World σ) Unit → Ending × World σ
  | .ok _ v => (⟨0, none⟩, v)
  | .error abort v => tell v abort

theorem run_eq_ended {name : Text} {specs : List OptionSpec} {body : Arguments → Command σ Unit} {args : List Text}
    {a : Arguments} (w : World σ) (hcheck : Arguments.check (specs ++ commonSpecs) args = .ok a)
    (hhelp : a.flag "--help" = false) : run name specs body args w = ended (EStateM.run (body a) w) := by
  rw [run_of_checked w hcheck hhelp]
  cases EStateM.run (body a) w <;> rfl

theorem builds_tell (w : World σ) (abort : Abort) : Builds w [] (tell w abort).2 := by
  cases abort with
  | error t => exact .record w nofun
  | uncaught f => exact .refl w

theorem builds_ended {x : Command σ Unit} (h : Clientless x) (w : World σ) :
    Builds w [] (ended (EStateM.run x w)).2 := by
  cases hr : EStateM.run x w with
  | ok _ v => exact h.ok w _ v hr
  | error abort v => exact (h.error w abort v hr).trans (builds_tell v abort)

/-- A command comes to such an end, with such deeds since a world. -/
structure Concludes (w : World σ) (ds : List Event) (ending : Ending) (r : Ending × World σ) : Prop where
  ending : r.1 = ending
  does : Does w ds r.2

theorem Concludes.behind {w v : World σ} {ds ds' : List Event} {ending : Ending} {r : Ending × World σ}
    (h : Does w ds v) (h' : Concludes v ds' ending r) : Concludes w (ds ++ ds') ending r :=
  ⟨h'.ending, h.trans h'.does⟩

/-- What is left of a line when it is printed: nothing if it cannot be. -/
def printed (line : Text) : List Event :=
  match line.withoutControls.unencodable? with
  | none => [.out line.withoutControls]
  | some _ => []

theorem concludes_print (line : Text) (w : World σ) :
    Concludes w (printed line) (lastLine line) (ended (EStateM.run (print line) w)) := by
  rw [printed, lastLine]
  cases hline : line.withoutControls.unencodable? with
  | none =>
    rw [run_print w hline]
    exact ⟨rfl, .record w rfl⟩
  | some u =>
    rw [run_print_error w hline]
    exact ⟨rfl, .refl w⟩

theorem concludes_error (t : Text) (w : World σ) :
    Concludes w [errorLine ("Error: " ++ t)] ⟨1, none⟩ (ended (.error (.error t) w)) :=
  ⟨rfl, .record w rfl⟩

/-- Building a connector builds a client of each service, from the settings. -/
theorem run_connector_does (settings : Settings) (w : World σ) :
    ∃ c v, EStateM.run (connector settings) w = .ok c v ∧ c.wait = intOrNull settings.wait ∧
      c.interval = .int (settings.interval.getD 1000) ∧ v.tooLong = w.tooLong ∧
      Does w [.client .sqs (clientOptions settings), .client .sns (clientOptions settings)] v := by
  obtain ⟨c, v, hrun, hwait, hinterval, hv⟩ := run_connector_eq settings w
  have hclients (u : World σ) : Does u [.client .sqs (clientOptions settings), .client .sns (clientOptions settings)]
      (withClients settings u) := (Does.record u rfl).trans (.record _ rfl)
  refine ⟨c, _, hrun, hwait, hinterval, ?_⟩
  obtain rfl | rfl := hv
  · exact ⟨rfl, hclients v⟩
  · exact ⟨rfl, (Does.log ..).trans (hclients _)⟩

end Command

end MessageBus
