import MessageBus.Check.Scalar
import MessageBus.Text.Blank
import MessageBus.Text.Likeness
import MessageBus.Text.Quoted
import MessageBus.Text.ScriptDigit

/-!
# Options of commands

The arguments of a command are options by their long names. A value follows its option as the next
argument, whatever that looks like, or behind an equals sign. Of an option that is given again the last
value counts. What is wrong is told one thing at a time: first what cannot be read from left to right,
then values and missing options in the order in which the options were given or are declared, then
arguments that are left over.
-/

namespace MessageBus

/-- What an option takes. -/
inductive OptionKind where
  | text (required : Bool)
  | integer
  | flag
deriving DecidableEq

/-- An option of a command, with its name in full. -/
structure OptionSpec where
  name : Text
  kind : OptionKind
deriving DecidableEq

/-- What is wrong with the arguments of a command. -/
inductive UsageError where
  /-- No option has the name; those in `similar` have names that are much like it. -/
  | noSuchOption (name : Text) (similar : List Text)
  | requiresArgument (name : Text)
  | takesNoValue (name : Text)
  | missingOption (name : Text)
  | invalidInteger (name value : Text)
  | extraArguments (arguments : List Text)
deriving DecidableEq

namespace UsageError

def suggestion : List Text → Text
  | [] => []
  | [name] => " Did you mean " ++ name.quoted ++ "?"
  | names => " (Did you mean one of: " ++ Text.joined ", " (names.map Text.quoted) ++ "?)"

def message : UsageError → Text
  | .noSuchOption name similar => "No such option " ++ name.quoted ++ "." ++ suggestion similar
  | .requiresArgument name => "Option " ++ name.quoted ++ " requires an argument."
  | .takesNoValue name => "Option " ++ name.quoted ++ " does not take a value."
  | .missingOption name => "Missing option " ++ name.quoted ++ "."
  | .invalidInteger name value =>
    "Invalid value for " ++ name.quoted ++ ": " ++ value.quoted ++ " is not a valid integer."
  | .extraArguments [x] => "Got unexpected extra argument (" ++ x ++ ")"
  | .extraArguments xs => "Got unexpected extra arguments (" ++ Text.joined " " xs ++ ")"

def showsUsage : UsageError → Bool
  | .requiresArgument _ => false
  | .takesNoValue _ => false
  | _ => true

end UsageError

/-- The options given, in order, each with its value unless it is a flag; and the other arguments. -/
structure Arguments where
  given : List (Text × Option Text)
  others : List Text
deriving DecidableEq

namespace Arguments

def spec? (specs : List OptionSpec) (name : Text) : Option OptionSpec := specs.find? (·.name = name)

/-- The name that an argument starts with, and the value behind an equals sign. -/
def splitValue (arg : Text) : Text × Option Text :=
  match arg.dropWhile (· ≠ .char '=') with
  | [] => (arg, none)
  | _ :: value => (arg.takeWhile (· ≠ .char '='), some value)

/-- Whether an argument is meant as options: two dashes and a name, or a dash and letters. -/
def isOption (arg : Text) : Bool :=
  match arg with
  | .char '-' :: _ :: _ => true
  | _ => false

def give (name : Text) (value : Option Text) (rest : Arguments) : Arguments :=
  { rest with given := (name, value) :: rest.given }

/-- The arguments read from left to right; `afterDashes` stand behind two dashes of their own. -/
def read (specs : List OptionSpec) : List Text → Except UsageError Arguments
  | [] => .ok ⟨[], []⟩
  | arg :: rest =>
    if arg = "--" then .ok ⟨[], rest⟩
    else if isOption arg then
      if Text.ofString "--" <+: arg then
        let (name, value) := splitValue arg
        match spec? specs name with
        | none => .error (.noSuchOption name (Text.closest name (specs.map OptionSpec.name)))
        | some spec =>
          if spec.kind = .flag then
            match value with
            | some _ => .error (.takesNoValue name)
            | none => (read specs rest).map (give name none)
          else
            match value with
            | some v => (read specs rest).map (give name (some v))
            | none =>
              match rest with
              | [] => .error (.requiresArgument name)
              | v :: rest => (read specs rest).map (give name (some v))
      else .error (.noSuchOption (arg.take 2) [])
    else (read specs rest).map fun a => { a with others := arg :: a.others }

def text? (a : Arguments) (name : Text) : Option Text :=
  match a.given.reverse.find? (·.1 = name) with
  | some (_, value) => value
  | none => none

def flag (a : Arguments) (name : Text) : Bool := a.given.any (·.1 = name)

def digits? (digit? : CodePoint → Option Nat) : Text → Option (List Nat)
  | [] => none
  | [c] => (digit? c).map ([·])
  | c :: d :: rest => do
    let n ← digit? c
    if d = '_' then
      match rest with
      | [] => none
      | e :: rest => (digits? digit? (e :: rest)).map (n :: ·)
    else (digits? digit? (d :: rest)).map (n :: ·)

def integerOf? (t : Text) : Option Int := do
  let (negative, unsigned) := Check.splitSign (t.trimmed CodePoint.isBlank)
  let ds ← digits? CodePoint.scriptDigit? unsigned
  if Check.digitLimit < ds.length then none
  else some (if negative then -(Text.numberOf ds : Int) else Text.numberOf ds)

def integer? (a : Arguments) (name : Text) : Option Int := (a.text? name).bind integerOf?

def valueError? (specs : List OptionSpec) (a : Arguments) (name : Text) : Option UsageError :=
  match spec? specs name, a.text? name with
  | some ⟨_, .integer⟩, some v => if (integerOf? v).isSome then none else some (.invalidInteger name v)
  | _, _ => none

def missingError? (a : Arguments) (spec : OptionSpec) : Option UsageError :=
  if spec.kind = .text true ∧ (a.given.all (·.1 ≠ spec.name)) then some (.missingOption spec.name)
  else none

def error? (specs : List OptionSpec) (a : Arguments) : Option UsageError :=
  (a.given.findSome? fun (name, _) => valueError? specs a name).or <|
    (specs.findSome? (missingError? a)).or <|
      if a.others.isEmpty then none else some (.extraArguments a.others)

/-- The arguments of a command, if nothing is wrong with them. Whoever asks for help gets it, whatever
else the values are. -/
def check (specs : List OptionSpec) (args : List Text) : Except UsageError Arguments := do
  let a ← read (⟨"--help", .flag⟩ :: specs) args
  if a.flag "--help" then .ok a
  else
    match error? specs a with
    | some e => .error e
    | none => .ok a

end Arguments

end MessageBus
