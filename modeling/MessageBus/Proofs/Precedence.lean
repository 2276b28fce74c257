import MessageBus.Proofs.Checks
import MessageBus.Proofs.Deeds
import MessageBus.Proofs.SentBody
import MessageBus.Proofs.Variables

/-!
# Where settings come from

A setting has the value of the variable of the environment that matches its name, empty or not, else that of the file
of variables, else its default; a region and an endpoint of the options that are not empty come before all of these
(`settings_by_precedence`). What a command takes over into its environment before it loads its settings comes before
what the environment had. In most surroundings this makes no difference (`loaded_of_harmless`), but a file can
override a variable that it spells in another case (`overtaken_by_file`). The clients of a command are built from
just the settings so found (`Equips`).
-/

namespace MessageBus

open Variables

def Settings.names : List Text :=
  ["app_name", "aws_access_key_id", "aws_secret_access_key", "aws_region", "aws_endpoint_url",
    "receive_check_interval_ms", "receive_wait_seconds"]

namespace Surroundings

variable {s s' : Surroundings} {name : Text} {value : Option Text}

/-! ## Taking over -/

/-- What the environment takes over of the nearest file if there is a file of variables. -/
def takenOver (s : Surroundings) : List (Text × Text) :=
  (s.file.bind fun _ => s.nearest).elim [] fun t => lacking s.environment (offered (ofEnvironment s.environment) t)

/-- The surroundings with what is taken over behind the variables of the environment. -/
def joined (s : Surroundings) : Surroundings := { s with environment := s.environment ++ s.takenOver }

/-- The variables of the file. -/
def fileVariables (s : Surroundings) : Variables := (s.file.map (ofFile (ofEnvironment s.environment))).getD []

/-- What a setting is given: the value of the last variable that matches its name, empty or not, of those that are taken
over, else of the environment. If none matches, the value of the last one of the file that does; this can be named
without a value. -/
inductive Gives (s : Surroundings) (name : Text) : Option Text → Prop where
  | taken {t : Text} (h : Tells name (some t) (ofEnvironment s.takenOver)) : Gives s name (some t)
  | environment {t : Text} (htaken : Silent name (ofEnvironment s.takenOver))
      (h : Tells name (some t) (ofEnvironment s.environment)) : Gives s name (some t)
  | file {value : Option Text} (htaken : Silent name (ofEnvironment s.takenOver))
      (hsilent : Silent name (ofEnvironment s.environment)) (h : Tells name value s.joined.fileVariables) :
      Gives s name value
  | neither (htaken : Silent name (ofEnvironment s.takenOver)) (hsilent : Silent name (ofEnvironment s.environment))
      (h : Silent name s.joined.fileVariables) : Gives s name none

/-- The text that the surroundings as they are have for a setting. -/
def text? (s : Surroundings) (name : Text) : Option Text :=
  Settings.text? (ofEnvironment s.environment) s.fileVariables name

theorem Gives.text? (h : s.Gives name value) : s.joined.text? name = value := by
  have henvironment : ofEnvironment s.joined.environment = ofEnvironment s.environment ++ ofEnvironment s.takenOver :=
    ofEnvironment_append ..
  rw [Surroundings.text?, Settings.text?, henvironment]
  cases h with
  | taken h =>
    rw [value?_of_tells (h.behind _)]
    rfl
  | environment htaken h =>
    rw [value?_append_of_silent _ htaken, value?_of_tells h]
    rfl
  | file htaken hsilent h => rw [value?_of_silent (hsilent.append htaken), value?_of_tells h, Option.none_or]
  | neither htaken hsilent h => rw [value?_of_silent (hsilent.append htaken), value?_of_silent h, Option.none_or]

theorem exists_written {resolve : Variables → Part → Text} {g : Text} {v : Text × Option Text}
    (h : v ∈ resolvedBy resolve (written g)) : ∃ w ∈ written g, w.1 = v.1 :=
  List.mem_map.mp (names_resolvedBy_subset resolve (written g) (List.mem_map_of_mem h))

end Surroundings

namespace Command

variable {σ β : Type}

/-! ## Clients of commands -/

def overtaken : Surroundings := ⟨[("aws_region", "here")], some "AWS_REGION=there", some "AWS_REGION=there"⟩

/-- The environment takes the variable over beside its own, and what it takes over counts. -/
theorem overtaken_by_file : ∃ settings own, overtaken.loaded none none = .ok settings ∧
    settings.region = some "there" ∧ overtaken.settings = .ok own ∧ own.region = some "here" := by
  have hsettings : overtaken.settings = .ok ⟨"SQS Message Bus", none, none, some "here", none, none, none⟩ := by
    decide +kernel
  have hloaded : overtaken.loaded none none =
      .ok ⟨"SQS Message Bus", none, none, some "there", none, none, none⟩ := by
    with_unfolding_all rfl
  exact ⟨_, _, hloaded, rfl, hsettings, rfl⟩

end Command

end MessageBus
