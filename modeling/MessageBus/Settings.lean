import MessageBus.Check.Scalar

/-!
# Settings

The settings of a connector come from variables: of the environment first, of a file second, and from
defaults where neither has one. A variable matches a setting whatever the case of its letters; of several
that match, the last one counts, and a variable of the environment counts even when it is empty.
-/

namespace MessageBus

/-- The settings of a connector. -/
structure Settings where
  appName : Text
  accessKey : Option Text
  secret : Option Text
  region : Option Text
  endpoint : Option Text
  interval : Option Int
  wait : Option Int
deriving DecidableEq

/-- Variables in order, each with its value, or without one when it is only named. -/
abbrev Variables := List (Text × Option Text)

namespace Variables

/-- The code point in lower case as far as settings are named: ASCII letters, and the Kelvin sign, which
is a `k` in lower case. -/
def lower (c : CodePoint) : CodePoint := if c.val = 0x212A then 'k' else c.asciiLower

/-- The value of the last variable that matches a name, if it has one. -/
def value? (name : Text) (vs : Variables) : Option Text :=
  match vs.reverse.find? fun (key, _) => key.map lower = name with
  | some (_, value) => value
  | none => none

def ofEnvironment (environment : List (Text × Text)) : Variables :=
  environment.map fun (key, value) => (key, some value)

end Variables

namespace Settings

/-- The text that a setting has: of the environment, else of the file. -/
def text? (environment file : Variables) (name : Text) : Option Text :=
  (environment.value? name).or (file.value? name)

/-- The integer that a setting has, within bounds if there are any. -/
def integer? (environment file : Variables) (name : Text) (least : Int) (greatest : Option Int) :
    Checked (Option Int) :=
  match text? environment file name with
  | none => .ok none
  | some t =>
    Checked.under [.key name] <|
      match Check.integerText t with
      | .error issues => .error issues
      | .ok n =>
        if n < least then .fail .greaterThanEqual
        else if greatest.any (· < n) then .fail .lessThanEqual
        else .ok (some n)

/-- The settings from the variables of the environment and of a file. -/
def load (environment file : Variables) : Checked Settings :=
  let text := text? environment file
  Checked.both
    (fun interval wait =>
      { appName := (text "app_name").getD "SQS Message Bus"
        accessKey := text "aws_access_key_id"
        secret := text "aws_secret_access_key"
        region := text "aws_region"
        endpoint := text "aws_endpoint_url"
        interval := interval
        wait := wait })
    (integer? environment file "receive_check_interval_ms" 1 none)
    (integer? environment file "receive_wait_seconds" 0 (some 20))

/-- The settings with a region and an endpoint in place of their own, unless these are empty. -/
def withOptions (s : Settings) (region endpoint : Option Text) : Settings :=
  { s with region := (region.filter (!·.isEmpty)).or s.region
           endpoint := (endpoint.filter (!·.isEmpty)).or s.endpoint }

def handedSecret (s : Settings) : Option Text := s.secret.filter (!·.isEmpty)

def shownSecret (s : Settings) : Option Text :=
  s.secret.map fun t => if t.isEmpty then [] else List.replicate 10 (.char '*')

end Settings

end MessageBus
