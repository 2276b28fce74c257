import MessageBus.Command
import MessageBus.Proofs.Calls

/-!
# Runs of commands

How the parts of a command run, and how it ends once its arguments are in order (`run_of_checked`). What only
prints, logs or builds clients leaves everything but the trace alone and makes no call (`Quiet`). A line can be printed
just if it holds no half of a UTF-16 pair (`Text.unencodable?_withoutControls`); an error is told whatever it holds.
-/

namespace MessageBus

namespace Text

theorem isChar_ofString (s : String) : ∀ c ∈ ofString s, c.isChar = true := by
  simp [ofString, CodePoint.isChar]

theorem isChar_ofNat (n : Nat) : ∀ c ∈ ofNat n, c.isChar = true := by
  simp [ofNat, CodePoint.isChar]

/-- Half of a UTF-16 pair breaks a control sequence off. -/
theorem isChar_of_step {part : ControlPart} {c : CodePoint} (h : part.step c ≠ .broken) : c.isChar = true := by
  cases c with
  | char c => rfl
  | surrogate half =>
    have hlarge : 0xD800 ≤ (CodePoint.surrogate half).val := Nat.le_add_right ..
    have hclose : ControlPart.close (.surrogate half) = .broken := by
      rw [ControlPart.close, if_neg (by omega), if_neg (by omega)]
    refine absurd ?_ h
    cases part with
    | escape => rfl
    | parameters => rw [ControlPart.step, if_neg (by omega), hclose]
    | intermediates => exact hclose

/-- What is dropped of a text holds no half of a UTF-16 pair. The induction is on the text, with what is held back of
a control sequence. -/
theorem isChar_withoutControlsFrom (part : Option ControlPart) {held : Text} (t : Text)
    (hheld : ∀ c ∈ held, c.isChar = true) :
    (∀ c ∈ withoutControlsFrom part held t, c.isChar = true) ↔ ∀ c ∈ t, c.isChar = true := by
  have hescape : ∀ c ∈ [CodePoint.char '\x1b'], c.isChar = true := by simp [CodePoint.isChar]
  fun_induction withoutControlsFrom part held t with
  | case1 part held => simpa using hheld
  | case2 held rest ih =>
    simp only [ih hescape, List.forall_mem_cons]
    exact (and_iff_right rfl).symm
  | case3 held c rest hc ih => simp only [List.forall_mem_cons, ih hheld]
  | case4 part held c rest part' hstep ih =>
    have hkept : part.step c ≠ .broken := by simp [hstep]
    have hchar : c.isChar = true := isChar_of_step hkept
    simp only [ih (List.forall_mem_cons.mpr ⟨hchar, hheld⟩), List.forall_mem_cons]
    exact (and_iff_right hchar).symm
  | case5 part held c rest hstep ih =>
    have hkept : part.step c ≠ .broken := by simp [hstep]
    have hchar : c.isChar = true := isChar_of_step hkept
    simp only [ih nofun, List.forall_mem_cons]
    exact (and_iff_right hchar).symm
  | case6 part held rest hstep ih =>
    simp only [List.forall_mem_append, ih hescape, List.forall_mem_cons, List.mem_reverse]
    exact (and_iff_right hheld).trans (and_iff_right rfl).symm
  | case7 part held c rest hstep hc ih =>
    simp only [List.forall_mem_append, List.forall_mem_cons, ih nofun, List.mem_reverse]
    exact and_iff_right hheld

/-- A line can be printed just if no half of a UTF-16 pair is in it. -/
theorem unencodable?_withoutControls (t : Text) :
    t.withoutControls.unencodable? = none ↔ ∀ c ∈ t, c.isChar = true :=
  (unencodable?_eq_none_iff _).trans (isChar_withoutControlsFrom none t nofun)

end Text

/-! ## Loading settings -/

namespace Surroundings

variable {s : Surroundings}

/-- Without a file of variables nothing is taken over. -/
theorem started_of_file (h : s.file = none) : s.started = .ok s := by
  rw [started, h]

theorem loaded_of_started {t : Surroundings} (h : s.started = .ok t) (region endpoint : Option Text) :
    s.loaded region endpoint = (t.settings.mapError (.invalid "Settings")).map (·.withOptions region endpoint) := by
  rw [loaded, h]
  cases hread : t.settings with
  | error issues => simp only [bind, Except.bind, hread, Except.mapError, Except.map]
  | ok settings => simp only [bind, Except.bind, hread, Except.mapError, Except.map]

theorem loaded_eq_ok {region endpoint : Option Text} {settings : Settings} :
    s.loaded region endpoint = .ok settings ↔
      ∃ t read, s.started = .ok t ∧ t.settings = .ok read ∧ read.withOptions region endpoint = settings := by
  cases hstarted : s.started with
  | error fault => simp [loaded, hstarted, bind, Except.bind]
  | ok t =>
    rw [loaded_of_started hstarted]
    cases hread : t.settings <;> simp [Except.mapError, Except.map, hread]

/-- The settings that a command loads. -/
def loadedBy (s : Surroundings) (a : Arguments) : Except Fault Settings :=
  s.loaded (a.text? "--region") (a.text? "--endpoint-url")

end Surroundings

namespace Command

variable {σ α β : Type}

/-! ## Parts that make no call -/

/-- Nothing happened but events that are no calls of a service. -/
structure Quiet (w v : World σ) : Prop where
  same : ∃ es, v = { w with trace := w.trace ++ es }
  makes : Makes w [] v

namespace Quiet

variable {w v u : World σ}

theorem refl (w : World σ) : Quiet w w := ⟨⟨[], by rw [List.append_nil]⟩, .refl w⟩

theorem trans (h : Quiet w v) (h' : Quiet v u) : Quiet w u := by
  obtain ⟨es, rfl⟩ := h.same
  obtain ⟨es', rfl⟩ := h'.same
  exact ⟨⟨es ++ es', by rw [List.append_assoc]⟩, h.makes.trans h'.makes⟩

theorem out (w : World σ) (line : Text) : Quiet w (w.record (.out line)) :=
  ⟨⟨_, rfl⟩, ⟨by simp [World.made, Entry.call?, World.now], by simp [calls, World.now]⟩⟩

theorem err (w : World σ) (line : Text) : Quiet w (w.record (.err line)) :=
  ⟨⟨_, rfl⟩, ⟨by simp [World.made, Entry.call?, World.now], by simp [calls, World.now]⟩⟩

theorem log (w : World σ) (level : Level) (logger : Logger) (t : Text) :
    Quiet w (w.record (.log level logger t)) := ⟨⟨_, rfl⟩, .log ..⟩

theorem client (w : World σ) (service : ServiceName) (options : ClientOptions) :
    Quiet w (w.record (.client service options)) :=
  ⟨⟨_, rfl⟩, ⟨by simp [World.made, Entry.call?, World.now], by simp [calls, World.now]⟩⟩

theorem service (h : Quiet w v) : v.service = w.service := by
  obtain ⟨_, rfl⟩ := h.same
  rfl

end Quiet

/-! ## Runs of parts -/

theorem run_bind_of_ok {x : Command σ α} {f : α → Command σ β} {a : α} {w v : World σ}
    (h : EStateM.run x w = .ok a v) : EStateM.run (x >>= f) w = EStateM.run (f a) v := by
  rw [EStateM.run_bind, h]

theorem run_bind_of_error {x : Command σ α} {f : α → Command σ β} {abort : Abort} {w v : World σ}
    (h : EStateM.run x w = .error abort v) : EStateM.run (x >>= f) w = .error abort v := by
  rw [EStateM.run_bind, h]

/-- How a fault of an action ends a command. -/
def abortOf : Fault → Abort
  | .bus e => .error (toldError e)
  | f => .uncaught f

theorem run_act (x : Action σ α) (w : World σ) :
    EStateM.run (act x) w = match x.run w with
      | .ok a v => .ok a v
      | .error f v => .error (abortOf f) v := by
  change (EStateM.adaptExcept _ x) w = match x w with
    | .ok a v => .ok a v
    | .error f v => .error (abortOf f) v
  unfold EStateM.adaptExcept
  cases x w with
  | ok a v => rfl
  | error f v => cases f <;> rfl

theorem run_act_ok {x : Action σ α} {a : α} {w v : World σ} (h : x.run w = .ok a v) :
    EStateM.run (act x) w = .ok a v := by
  rw [run_act, h]

theorem run_act_error {x : Action σ α} {f : Fault} {w v : World σ} (h : x.run w = .error f v) :
    EStateM.run (act x) w = .error (abortOf f) v := by
  rw [run_act, h]

theorem run_print {line : Text} (w : World σ) (h : line.withoutControls.unencodable? = none) :
    EStateM.run (print line) w = .ok () (w.record (.out line.withoutControls)) := by
  rw [print, h]
  rfl

theorem run_print_error {line : Text} {u : Unencodable} (w : World σ)
    (h : line.withoutControls.unencodable? = some u) :
    EStateM.run (print line) w = .error (.uncaught (.unencodable u)) w := by
  rw [print, h]
  rfl

theorem run_words {t : Except Fault Text} {line : Text} (w : World σ) (h : t = .ok line) :
    EStateM.run (words t) w = .ok line w := by
  rw [h]
  rfl

theorem run_words_error {t : Except Fault Text} {f : Fault} (w : World σ) (h : t = .error f) :
    EStateM.run (words t) w = .error (abortOf f) w := by
  rw [h]
  exact run_act_error (Action.run_lift_error f w)

theorem run_settings {s : Surroundings} {settings : Settings} {a : Arguments} (w : World σ)
    (h : s.loadedBy a = .ok settings) : EStateM.run (Command.settings s a) w = .ok settings w := by
  rw [Surroundings.loadedBy] at h
  rw [Command.settings, h]
  rfl

theorem run_settings_error {s : Surroundings} {fault : Fault} {a : Arguments} (w : World σ)
    (h : s.loadedBy a = .error fault) : EStateM.run (Command.settings s a) w = .error (.uncaught fault) w := by
  rw [Surroundings.loadedBy] at h
  rw [Command.settings, h]
  rfl

/-- A world in which the clients of a command were built. -/
def withClients (settings : Settings) (w : World σ) : World σ :=
  (w.record (.client .sqs (clientOptions settings))).record (.client .sns (clientOptions settings))

/-- A connector is built with its clients, behind a warning if its interval is set. -/
theorem run_connector_eq (settings : Settings) (w : World σ) :
    ∃ c v, EStateM.run (connector settings) w = .ok c (withClients settings v) ∧ c.wait = intOrNull settings.wait ∧
      c.interval = .int (settings.interval.getD 1000) ∧
      (v = w ∨ v = w.record (.log .warning .connector Connector.intervalWarning)) := by
  cases hinterval : settings.interval with
  | none =>
    refine ⟨⟨Connector.defaultInterval, intOrNull settings.wait⟩, w, run_act_ok ?_, rfl, rfl, .inl rfl⟩
    rw [hinterval]
    rfl
  | some n =>
    refine ⟨⟨.int n, intOrNull settings.wait⟩, _, run_act_ok ?_, rfl, rfl, .inr rfl⟩
    rw [hinterval]
    rfl

theorem run_connector (settings : Settings) (w : World σ) :
    ∃ c v, EStateM.run (connector settings) w = .ok c v ∧ Quiet w v := by
  obtain ⟨c, v, hrun, -, -, hv⟩ := run_connector_eq settings w
  have hclients (u : World σ) : Quiet u (withClients settings u) := (Quiet.client ..).trans (.client ..)
  refine ⟨c, _, hrun, ?_⟩
  obtain rfl | rfl := hv
  · exact hclients v
  · exact (Quiet.log ..).trans (hclients _)

/-! ## How a command ends -/

/-- How a command ends whose last step prints a line. -/
def lastLine (line : Text) : Ending :=
  match line.withoutControls.unencodable? with
  | none => ⟨0, none⟩
  | some u => ⟨1, some (.unencodable u)⟩

/-- A command whose arguments are in order, and do not ask for help, ends as its body does. -/
theorem run_of_checked {name : Text} {specs : List OptionSpec} {body : Arguments → Command σ Unit}
    {args : List Text} {a : Arguments} (w : World σ)
    (hcheck : Arguments.check (specs ++ commonSpecs) args = .ok a) (hhelp : a.flag "--help" = false) :
    run name specs body args w = match EStateM.run (body a) w with
      | .ok _ v => (⟨0, none⟩, v)
      | .error abort v => tell v abort := by
  have hbody : ¬ a.flag "--help" = true := by simp [hhelp]
  rw [run, hcheck]
  exact if_neg hbody

/-- The world that a part of a command leaves. -/
def left : EStateM.Result Abort (World σ) α → World σ
  | .ok _ v => v
  | .error _ v => v

theorem makes_print (line : Text) (w : World σ) : Makes w [] (left (EStateM.run (print line) w)) := by
  cases hline : line.withoutControls.unencodable? with
  | none =>
    rw [run_print w hline]
    exact (Quiet.out ..).makes
  | some u =>
    rw [run_print_error w hline]
    exact .refl w

/-- Nor does a line make one that cannot be put into words. -/
theorem makes_print_words (t : Except Fault Text) (line : Text → Text) (w : World σ) :
    Makes w [] (left (EStateM.run (words t >>= fun t => print (line t)) w)) := by
  cases t with
  | ok t =>
    rw [run_bind_of_ok (run_words w rfl)]
    exact makes_print (line t) w
  | error f =>
    rw [run_bind_of_error (run_words_error w rfl)]
    exact .refl w

/-- Telling how a command ended makes no call. -/
theorem makes_tell (w : World σ) (abort : Abort) : Makes w [] (tell w abort).2 := by
  cases abort with
  | error t => exact (Quiet.err ..).makes
  | uncaught f => exact .refl w

theorem makes_of_checked {name : Text} {specs : List OptionSpec} {body : Arguments → Command σ Unit}
    {args : List Text} {a : Arguments} {w : World σ} {cs : List Call}
    (hcheck : Arguments.check (specs ++ commonSpecs) args = .ok a) (hhelp : a.flag "--help" = false)
    (h : Makes w cs (left (EStateM.run (body a) w))) : Makes w cs (run name specs body args w).2 := by
  rw [run_of_checked w hcheck hhelp]
  cases hbody : EStateM.run (body a) w with
  | ok _ v =>
    rw [hbody] at h
    exact h
  | error abort v =>
    rw [hbody] at h
    exact h.before (makes_tell v abort)

/-- The calls that a command made that ended so. -/
def madeBy (w : World σ) (r : Ending × World σ) : List Call := r.2.made.drop w.made.length

theorem madeBy_eq {w : World σ} {r : Ending × World σ} {cs : List Call} (h : Makes w cs r.2) : madeBy w r = cs := by
  rw [madeBy, h.made, List.drop_left]

/-- A command whose body comes down to printing a line ends with that. -/
theorem ends_of_print (name : Text) {line : Text} {specs : List OptionSpec} {body : Arguments → Command σ Unit}
    {args : List Text} {a : Arguments} {w v : World σ}
    (hcheck : Arguments.check (specs ++ commonSpecs) args = .ok a) (hhelp : a.flag "--help" = false)
    (hbody : EStateM.run (body a) w = EStateM.run (print line) v) :
    ∃ u, run name specs body args w = (lastLine line, u) ∧ Quiet v u := by
  rw [run_of_checked w hcheck hhelp, hbody, lastLine]
  cases hline : line.withoutControls.unencodable? with
  | none =>
    rw [run_print v hline]
    exact ⟨_, rfl, .out ..⟩
  | some u =>
    rw [run_print_error v hline]
    exact ⟨_, rfl, .refl v⟩

end Command

end MessageBus
