import MessageBus.Command.Options
import MessageBus.Connector
import MessageBus.Settings.File
import MessageBus.Text.ControlSequence

/-!
# Commands

A command reads its arguments, loads the settings and acts. It ends with an exit code, or with a fault
that is none of its own errors. Its errors are printed with the word `Error` before them: wrong usage
ends with code 2, all else with code 1.
-/

namespace MessageBus

/-- The surroundings of a command: the variables of the environment, and the text of the file of variables if there is
one. The environment takes variables over from the file that is nearest to the program, in its directory or above; that
is the same file only if the program lies in the working directory or below. -/
structure Surroundings where
  environment : List (Text × Text)
  file : Option Text
  nearest : Option Text := none

namespace Surroundings

def settings (s : Surroundings) : Checked Settings :=
  let environment := Variables.ofEnvironment s.environment
  Settings.load environment ((s.file.map (Variables.ofFile environment)).getD [])

/-- The surroundings in which a command loads its settings. If there is a file of variables, the environment takes over
those that it lacks from the nearest one. -/
def started (s : Surroundings) : Except Fault Surroundings :=
  match s.file, s.nearest with
  | some _, some t =>
    let added := Variables.lacking s.environment (Variables.offered (Variables.ofEnvironment s.environment) t)
    match added.findSome? fun (name, value) => Variables.unholdable? name value with
    | some message => .error (.outOfRange message)
    | none => .ok { s with environment := s.environment ++ added }
  | _, _ => .ok s

/-- The settings of a command, with a region and an endpoint from its options. -/
def loaded (s : Surroundings) (region endpoint : Option Text) : Except Fault Settings := do
  let s ← s.started
  match s.settings with
  | .error issues => .error (.invalid "Settings" issues)
  | .ok settings => .ok (settings.withOptions region endpoint)

end Surroundings

/-- Why a command ends early. -/
inductive Abort where
  | error (message : Text)
  | uncaught (fault : Fault)

/-- How a command ended. -/
structure Ending where
  code : Nat
  uncaught : Option Fault

abbrev Command (σ : Type) (α : Type) := EStateM Abort (World σ) α

namespace Command

variable {σ : Type} {α : Type}

/-- The error that a command tells for an error of the bus. Rejected credentials are called out. -/
def toldError (e : BusError) : Text :=
  if e.kind = .security then "AWS rejected the credentials. " ++ e.report else e.report

/-- An action within a command: an error of the bus is an error of the command. -/
def act (x : Action σ α) : Command σ α :=
  x.adaptExcept fun
    | .bus e => .error (toldError e)
    | fault => .uncaught fault

/-- Prints a line. A line with half of a UTF-16 pair in it cannot be printed. -/
def print (line : Text) : Command σ Unit :=
  match line.withoutControls.unencodable? with
  | some u => throw (.uncaught (.unencodable u))
  | none => act (Action.record (.out line.withoutControls))

/-- A text within a line, if it can be put into words. -/
def words (text : Except Fault Text) : Command σ Text := act (Action.lift text)

/-- The event of a line that is printed as an error. Halves of UTF-16 pairs are spelled in it. -/
def errorLine (line : Text) : Event := .err line.withoutControls.spelled

def fail (message : Text) : Command σ α := throw (.error message)

/-- The settings that the surroundings and the options of a command give. -/
def settings (s : Surroundings) (a : Arguments) : Command σ Settings :=
  match s.loaded (a.text? "--region") (a.text? "--endpoint-url") with
  | .error fault => throw (.uncaught fault)
  | .ok settings => pure settings

def orNull (t : Option Text) : Value := (t.map .text).getD .null

def intOrNull (n : Option Int) : Value := (n.map .int).getD .null

def clientOptions (s : Settings) : ClientOptions :=
  ⟨orNull s.accessKey, orNull s.handedSecret, orNull s.region, orNull s.endpoint⟩

def connector (s : Settings) : Command σ Connector :=
  act (Connector.build (intOrNull s.interval) (intOrNull s.wait) (clientOptions s) false)

def commonSpecs : List OptionSpec := [⟨"--region", .text false⟩, ⟨"--endpoint-url", .text false⟩]

def usage (name : Text) : Text := "Usage: " ++ name ++ " [OPTIONS]"

def tell (w : World σ) : Abort → Ending × World σ
  | .error message => (⟨1, none⟩, w.record (errorLine ("Error: " ++ message)))
  | .uncaught fault => (⟨1, some fault⟩, w)

/-- Runs a command on arguments in a world. -/
def run (name : Text) (specs : List OptionSpec) (body : Arguments → Command σ Unit) (args : List Text)
    (w : World σ) : Ending × World σ :=
  match Arguments.check (specs ++ commonSpecs) args with
  | .error e =>
    let w := if e.showsUsage then
        ((w.record (errorLine (usage name))).record
          (errorLine ("Try '" ++ name ++ " --help' for help."))).record (errorLine [])
      else w
    (⟨2, none⟩, w.record (errorLine ("Error: " ++ e.message)))
  | .ok a =>
    if a.flag "--help" then (⟨0, none⟩, w.record (.out (usage name)))
    else
      match EStateM.run (body a) w with
      | .ok _ w => (⟨0, none⟩, w)
      | .error abort w => tell w abort

end Command

end MessageBus
