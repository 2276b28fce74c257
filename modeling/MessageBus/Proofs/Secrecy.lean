import MessageBus.Proofs.Parts
import MessageBus.Proofs.SendCommand

/-!
# The secret stays secret

Two runs of a command whose settings differ only in the secret cannot be told apart but by the options of the clients
that are built (`secret_untold`). No action looks at what happened before, so that runs from worlds with alike traces
go alike (`Blind`); this pervades all that commands are made of (`blind_pervades`). The secret enters a command in one
place, where the clients are built (`agree_connector`).
-/

namespace MessageBus

/-! ## Worlds that are alike -/

/-- The options of a client with the text of the secret taken away. Whether there is one remains. -/
def ClientOptions.masked (o : ClientOptions) : ClientOptions :=
  match o.secret with
  | .text _ => { o with secret := .text [] }
  | _ => o

def Event.masked : Event → Event
  | .client service options => .client service options.masked
  | e => e

def Entry.masked (e : Entry) : Entry := { e with event := e.event.masked }

/-- A world with the secret taken away from all that happened. -/
def World.masked {σ : Type} (w : World σ) : World σ := { w with trace := w.trace.map Entry.masked }

namespace World

variable {σ : Type} {w v : World σ}

/-- The worlds differ at most in the secrets of clients. -/
def Alike (w v : World σ) : Prop := w.masked = v.masked

namespace Alike

theorem refl (w : World σ) : Alike w w := rfl

theorem of_trace {es : List Entry} (h : w.trace.map Entry.masked = es.map Entry.masked) :
    Alike w { w with trace := es } := by
  rw [Alike, masked, h]
  rfl

theorem exists_trace (h : Alike w v) :
    ∃ es, v = { w with trace := es } ∧ w.trace.map Entry.masked = es.map Entry.masked := by
  obtain ⟨started, elapsed, timers, running, service, store, serial, patience, trace, tooLong⟩ := w
  obtain ⟨started', elapsed', timers', running', service', store', serial', patience', trace', tooLong'⟩ := v
  simp only [Alike, masked, World.mk.injEq] at h
  obtain ⟨rfl, rfl, rfl, rfl, rfl, rfl, rfl, rfl, htrace, rfl⟩ := h
  exact ⟨trace', rfl, htrace⟩

theorem record (h : Alike w v) {e e' : Event} (he : e.masked = e'.masked) : Alike (w.record e) (v.record e') := by
  obtain ⟨es, rfl, hes⟩ := h.exists_trace
  refine of_trace ?_
  have hentry : (w.now e).masked = (w.now e').masked := congrArg (Entry.mk w.elapsed w.running) he
  simp only [trace_record, List.map_append, hes, List.map_singleton, hentry]
  rfl

end Alike

end World

open World

/-! ## Runs that go alike -/

/-- Results of runs that went alike: the same value or error, and worlds that are alike. -/
inductive Twins {ε σ α : Type} : EStateM.Result ε (World σ) α → EStateM.Result ε (World σ) α → Prop where
  | ok (a : α) {w v : World σ} (h : Alike w v) : Twins (.ok a w) (.ok a v)
  | error (e : ε) {w v : World σ} (h : Alike w v) : Twins (.error e w) (.error e v)

section agree

variable {ε σ α β : Type}

/-- From worlds that are alike, the two go alike. -/
def Agree (x y : EStateM ε (World σ) α) : Prop := ∀ ⦃w v : World σ⦄, Alike w v → Twins (x.run w) (y.run v)

/-- It does not matter for a run which secrets the clients got before. -/
abbrev Blind (x : EStateM ε (World σ) α) : Prop := Agree x x

namespace Agree

theorem bind {x y : EStateM ε (World σ) α} {f g : α → EStateM ε (World σ) β} (h : Agree x y)
    (hf : ∀ a, Agree (f a) (g a)) : Agree (x >>= f) (y >>= g) := by
  intro w v hw
  have hrun := h hw
  rw [EStateM.run_bind, EStateM.run_bind]
  generalize x.run w = r at hrun
  generalize y.run v = r' at hrun
  cases hrun with
  | ok a h => exact hf a h
  | error e h => exact .error e h

theorem get_bind {f g : World σ → EStateM ε (World σ) β}
    (h : ∀ (w : World σ) (es : List Entry), w.trace.map Entry.masked = es.map Entry.masked →
      Agree (f w) (g { w with trace := es })) : Agree (get >>= f) (get >>= g) := by
  intro w v hw
  obtain ⟨es, rfl, hes⟩ := hw.exists_trace
  exact h w es hes hw

theorem ite {p : Prop} [Decidable p] {x x' y y' : EStateM ε (World σ) α} (hx : Agree x x') (hy : Agree y y') :
    Agree (if p then x else y) (if p then x' else y') := by
  split
  · exact hx
  · exact hy

theorem pure (a : α) : Blind (pure a : EStateM ε (World σ) α) := fun _ _ h => .ok a h

theorem throw (e : ε) : Blind (throw e : EStateM ε (World σ) α) := fun _ _ h => .error e h

/-- What changes a world without looking at what happened, and adds nothing to it. -/
theorem of_modify {x : EStateM ε (World σ) α} {f : World σ → α × World σ}
    (hx : ∀ w, x.run w = .ok (f w).1 (f w).2)
    (hf : ∀ (w : World σ) (es : List Entry), f { w with trace := es } = ((f w).1, { (f w).2 with trace := es }) ∧
      (f w).2.trace = w.trace) : Blind x := by
  intro w v hw
  obtain ⟨es, rfl, hes⟩ := hw.exists_trace
  obtain ⟨heq, htrace⟩ := hf w es
  rw [hx, hx, heq]
  exact .ok _ (.of_trace (htrace ▸ hes))

end Agree

end agree

namespace Action

variable {σ : Type}

theorem agree_record {e e' : Event} (h : e.masked = e'.masked) : Agree (record e : Action σ Unit) (record e') :=
  fun _ _ hw => .ok () (hw.record h)

theorem blind_perform [Service σ] (r : Request) : Blind (perform r : Action σ (Except Failure Value)) := by
  intro w v hw
  obtain ⟨es, rfl, hes⟩ := hw.exists_trace
  have hrun (u : World σ) : (perform r).run u = .ok (u.reply r).outcome (u.after r) := rfl
  have hafter : ({ w with trace := es } : World σ).after r = { w.after r with trace := es ++ w.exchange r } := by
    rw [← show (({ w with trace := es } : World σ).after r).trace = es ++ w.exchange r from trace_after ..]
    rfl
  rw [hrun, hrun, hafter]
  refine .ok _ (.of_trace ?_)
  rw [trace_after, List.map_append, List.map_append, hes]

end Action

namespace Command

variable {σ α : Type}

theorem agree_act {x y : Action σ α} (h : Agree x y) : Agree (act x) (act y) := by
  intro w v hw
  have hrun := h hw
  rw [run_act, run_act]
  generalize x.run w = r at hrun
  generalize y.run v = r' at hrun
  cases hrun with
  | ok a h => exact .ok a h
  | error f h => exact .error (abortOf f) h

end Command

/-- Nothing that operations and commands are made of looks at what happened before. -/
theorem blind_pervades {σ : Type} [Service σ] : Pervasive (σ := σ) fun _ _ x => Blind x where
  returns := .pure
  throws := .throw
  andThen := .bind
  looks hblind hf := .get_bind fun w es _ => hblind w es ▸ hf w
  changes _ hx hf := .of_modify hx hf
  records _ _ := Action.agree_record rfl
  performs := Action.blind_perform
  acts := Command.agree_act

/-! ## Settings that differ in the secret -/

/-- The environments differ at most in the values of one variable, however it is spelled, and these are not empty. -/
def ApartIn (name : Text) : List (Text × Text) → List (Text × Text) → Prop :=
  List.Forall₂ fun e e' => e'.1 = e.1 ∧ (e'.2 = e.2 ∨ e.1.map Variables.lower = name ∧ e.2 ≠ [] ∧ e'.2 ≠ [])

/-- The settings differ at most in the secret. Both clients get one, or neither. -/
structure Settings.SecretApart (s s' : Settings) : Prop where
  same : s' = { s with secret := s'.secret }
  handed : s'.handedSecret.isSome = s.handedSecret.isSome

section settings

variable {name : Text} {environment environment' : List (Text × Text)} (file : Variables)

/-- What is found in such environments is the same, or both have the variable with a value. -/
theorem ApartIn.value? (h : ApartIn name environment environment') (other : Text) :
    (Variables.ofEnvironment environment').value? other = (Variables.ofEnvironment environment).value? other ∨
      other = name ∧ ∃ t t', (Variables.ofEnvironment environment).value? other = some t ∧
        (Variables.ofEnvironment environment').value? other = some t' ∧ t ≠ [] ∧ t' ≠ [] := by
  have hreverse := List.rel_reverse h
  simp only [Variables.value?, Variables.ofEnvironment, ← List.map_reverse]
  generalize environment.reverse = es at hreverse
  generalize environment'.reverse = es' at hreverse
  induction hreverse with
  | nil => exact .inl rfl
  | @cons e e' es es' he _ ih =>
    obtain ⟨key, t⟩ := e
    obtain ⟨key', t'⟩ := e'
    obtain ⟨rfl, hvalue⟩ := he
    by_cases hkey : key'.map Variables.lower = other
    · simp only [List.map_cons, List.find?_cons, decide_eq_true hkey]
      obtain hsame | ⟨hname, ht, ht'⟩ := hvalue
      · exact .inl (congrArg some hsame)
      · exact .inr ⟨hkey.symm.trans hname, t, t', rfl, rfl, ht, ht'⟩
    · simp only [List.map_cons, List.find?_cons, decide_eq_false hkey]
      exact ih

theorem ApartIn.text? (h : ApartIn name environment environment') (other : Text) (hother : other ≠ name) :
    Settings.text? (Variables.ofEnvironment environment') file other =
      Settings.text? (Variables.ofEnvironment environment) file other := by
  obtain hsame | ⟨hname, -⟩ := h.value? other
  · rw [Settings.text?, Settings.text?, hsame]
  · exact absurd hname hother

theorem ApartIn.integer? (h : ApartIn name environment environment') (other : Text) (hother : other ≠ name)
    (least : Int) (greatest : Option Int) :
    Settings.integer? (Variables.ofEnvironment environment') file other least greatest =
      Settings.integer? (Variables.ofEnvironment environment) file other least greatest := by
  rw [Settings.integer?, Settings.integer?, h.text? file other hother]

/-- Environments that differ in the secret give settings that do, or are refused alike. -/
theorem ApartIn.load (h : ApartIn "aws_secret_access_key" environment environment') :
    (∃ issues, Settings.load (Variables.ofEnvironment environment) file = .error issues ∧
      Settings.load (Variables.ofEnvironment environment') file = .error issues) ∨
    ∃ s s', Settings.load (Variables.ofEnvironment environment) file = .ok s ∧
      Settings.load (Variables.ofEnvironment environment') file = .ok s' ∧ s.SecretApart s' := by
  have hinterval := h.integer? file "receive_check_interval_ms" (by decide) 1 none
  have hwait := h.integer? file "receive_wait_seconds" (by decide) 0 (some 20)
  have happ := h.text? file "app_name" (by decide)
  have haccess := h.text? file "aws_access_key_id" (by decide)
  have hregion := h.text? file "aws_region" (by decide)
  have hendpoint := h.text? file "aws_endpoint_url" (by decide)
  simp only [Settings.load, hinterval, hwait, happ, haccess, hregion, hendpoint]
  cases Settings.integer? (Variables.ofEnvironment environment) file "receive_check_interval_ms" 1 none with
  | error issues =>
    left
    cases Settings.integer? (Variables.ofEnvironment environment) file "receive_wait_seconds" 0 (some 20) <;>
      exact ⟨_, rfl, rfl⟩
  | ok interval =>
    cases Settings.integer? (Variables.ofEnvironment environment) file "receive_wait_seconds" 0 (some 20) with
    | error issues => exact .inl ⟨_, rfl, rfl⟩
    | ok wait =>
      refine .inr ⟨_, _, rfl, rfl, rfl, ?_⟩
      simp only [Settings.handedSecret, Settings.text?]
      obtain hsame | ⟨-, t, t', ht, ht', hne, hne'⟩ := h.value? "aws_secret_access_key"
      · rw [hsame]
      · have hfull : t.isEmpty = false := List.isEmpty_eq_false_iff.mpr hne
        have hfull' : t'.isEmpty = false := List.isEmpty_eq_false_iff.mpr hne'
        simp [ht, ht', hfull, hfull']

end settings

/-! ## Commands -/

namespace Command

variable {σ : Type}

theorem masked_clientOptions {s s' : Settings} (h : s.SecretApart s') :
    (clientOptions s').masked = (clientOptions s).masked := by
  have hhanded := h.handed
  rw [h.same] at hhanded ⊢
  simp only [clientOptions, Settings.handedSecret, ClientOptions.masked] at hhanded ⊢
  cases ht : s.secret.filter (!·.isEmpty) <;> cases ht' : s'.secret.filter (!·.isEmpty) <;>
    simp_all [orNull]

theorem secretApart_withOptions {s s' : Settings} (h : s.SecretApart s') (region endpoint : Option Text) :
    (s.withOptions region endpoint).SecretApart (s'.withOptions region endpoint) := by
  refine ⟨?_, h.handed⟩
  rw [h.same]
  rfl

theorem agree_connector {s s' : Settings} (h : s.SecretApart s') :
    Agree (connector s : Command σ Connector) (connector s') := by
  have hclient (service : ServiceName) : Event.masked (.client service (clientOptions s)) =
      Event.masked (.client service (clientOptions s')) :=
    congrArg (Event.client service) (masked_clientOptions h).symm
  have hclients (c : Connector) : Agree
      (do
        Action.record (.client .sqs (clientOptions s))
        Action.record (.client .sns (clientOptions s))
        pure c : Action σ Connector)
      (do
        Action.record (.client .sqs (clientOptions s'))
        Action.record (.client .sns (clientOptions s'))
        pure c) :=
    (Action.agree_record (hclient .sqs)).bind fun _ => (Action.agree_record (hclient .sns)).bind fun _ => .pure _
  have hinterval : s'.interval = s.interval := by rw [h.same]
  have hwait : s'.wait = s.wait := by rw [h.same]
  unfold connector
  rw [hinterval, hwait]
  exact agree_act (.ite (hclients _) ((Action.agree_record rfl).bind fun _ => hclients _))

/-- A command that learns no secret otherwise goes alike in environments that differ in the secret: the settings are
refused alike, or the clients are built alike. -/
theorem agree_equipped {β : Type} {environment environment' : List (Text × Text)} (nearest : Option Text)
    (h : ApartIn "aws_secret_access_key" environment environment') (a : Arguments) {first : Command σ β}
    {rest : β → Connector → Command σ Unit} (hfirst : Blind first) (hrest : ∀ b c, Blind (rest b c)) :
    Agree (equipped ⟨environment, none, nearest⟩ a first rest)
      (equipped ⟨environment', none, nearest⟩ a first rest) := by
  refine hfirst.bind fun b w v hw => ?_
  have hloaded (e : List (Text × Text)) : Surroundings.loadedBy ⟨e, none, nearest⟩ a =
      ((Settings.load (Variables.ofEnvironment e) []).mapError (.invalid "Settings")).map
        (·.withOptions (a.text? "--region") (a.text? "--endpoint-url")) :=
    Surroundings.loaded_of_started (Surroundings.started_of_file rfl) _ _
  obtain ⟨issues, hload, hload'⟩ | ⟨s, s', hload, hload', hapart⟩ := h.load []
  · rw [run_bind_of_error (run_settings_error w ((hloaded environment).trans (by rw [hload]; rfl))),
      run_bind_of_error (run_settings_error v ((hloaded environment').trans (by rw [hload']; rfl)))]
    exact .error _ hw
  · rw [run_bind_of_ok (run_settings w ((hloaded environment).trans (by rw [hload]; rfl))),
      run_bind_of_ok (run_settings v ((hloaded environment').trans (by rw [hload']; rfl)))]
    exact (agree_connector (secretApart_withOptions hapart _ _)).bind (hrest b) hw

/-- How a command ends, with the secret taken away from all that happened. -/
def observed (r : Ending × World σ) : Ending × World σ := (r.1, r.2.masked)

/-- Commands whose bodies go alike end alike. -/
theorem observed_run {body body' : Arguments → Command σ Unit} (h : ∀ a, Agree (body a) (body' a)) (name : Text)
    (specs : List OptionSpec) (args : List Text) (w : World σ) :
    observed (run name specs body args w) = observed (run name specs body' args w) := by
  unfold run
  split
  · rfl
  · next a _ =>
    split
    · rfl
    · have hrun := h a (Alike.refl w)
      generalize EStateM.run (body a) w = r at hrun
      generalize EStateM.run (body' a) w = r' at hrun
      cases hrun with
      | ok _ h => exact congrArg (Prod.mk _) h
      | error abort h =>
        cases abort with
        | error t => exact congrArg (Prod.mk _) (h.record rfl)
        | uncaught f => exact congrArg (Prod.mk _) h

/-- Whatever the arguments and the services, no command lets out more of the secret than whether there is one: from
environments that differ in nothing else it ends alike, and all that happens is the same but for the secret that the
clients are handed. -/
theorem secret_untold [Service σ] {environment environment' : List (Text × Text)}
    (h : ApartIn "aws_secret_access_key" environment environment') (nearest : Option Text) (args : List Text)
    (w : World σ) :
    observed (queue ⟨environment, none, nearest⟩ args w) = observed (queue ⟨environment', none, nearest⟩ args w) ∧
      observed (send ⟨environment, none, nearest⟩ args w) = observed (send ⟨environment', none, nearest⟩ args w) ∧
      observed (receive ⟨environment, none, nearest⟩ args w) =
        observed (receive ⟨environment', none, nearest⟩ args w) := by
  have hblind : Pervasive (σ := σ) fun _ _ x => Blind x := blind_pervades
  refine ⟨observed_run (fun a => ?_) .., observed_run (fun a => ?_) .., observed_run (fun a => ?_) ..⟩
  · rw [queueBody_eq, queueBody_eq]
    exact agree_equipped nearest h a (hblind.queueFirst a) fun _ _ => hblind.queueRest a
  · rw [sendBody_eq, sendBody_eq]
    exact agree_equipped nearest h a (hblind.sendFirst a) fun b _ => hblind.sendRest a b.1 b.2
  · rw [receiveBody_eq, receiveBody_eq]
    exact agree_equipped nearest h a (hblind.receiveFirst a) fun _ c => hblind.receiveRest a c

/-- The environment of a process that has a secret. -/
def keeping (secret : Text) : List (Text × Text) := [("AWS_ACCESS_KEY_ID", "id"), ("AWS_SECRET_ACCESS_KEY", secret)]

/-- Two secrets are kept alike. -/
theorem two_secrets_untold :
    ApartIn "aws_secret_access_key" (keeping "one") (keeping "other") ∧
      observed (send ⟨keeping "one", none, none⟩ (naming "orders" "[1]") untouched) =
        observed (send ⟨keeping "other", none, none⟩ (naming "orders" "[1]") untouched) := by
  have hapart : ApartIn "aws_secret_access_key" (keeping "one") (keeping "other") :=
    .cons ⟨rfl, .inl rfl⟩ (.cons ⟨rfl, .inr ⟨by decide, by decide, by decide⟩⟩ .nil)
  exact ⟨hapart, (secret_untold hapart none (naming "orders" "[1]") untouched).2.1⟩

end Command

end MessageBus
