import MessageBus.Check
import MessageBus.Text.Blank
import MessageBus.Text.Utf8

/-!
# Checks of scalars

Texts, integers and booleans, each with the other spellings that count as one: octets for a text, a
text in decimal digits or a whole number for an integer, a word such as `on` for a boolean.
-/

namespace MessageBus.Check

def text : Value → Checked Text
  | .text t => .ok t
  | .bytes octets =>
    match Utf8.decode false 0 octets with
    | .ok t => .ok t
    | .error _ => .fail .stringUnicode
  | _ => .fail .stringType

def optionalText : Value → Checked Value
  | .null => .ok .null
  | v => (text v).map .text

def requiredText : Option Value → Checked Value
  | none => .fail .missing
  | some v => (text v).map .text

/-- A text that is exactly `word`. Half of a UTF-16 pair makes it no text at all. -/
def literal (word : Text) : Value → Checked Value
  | .text t =>
    if t.all CodePoint.isChar then
      if t = word then .ok (.text word) else .fail .literalError
    else .fail .stringUnicode
  | _ => .fail .literalError

/-! ## Integers -/

/-- How many digits an integer may have. -/
def digitLimit : Nat := 4300

/-- A text without a sign at its head, and whether that is a minus sign. -/
def splitSign : Text → Bool × Text
  | .char '-' :: rest => (true, rest)
  | .char '+' :: rest => (false, rest)
  | t => (false, t)

/-- The integer that a text spells in plain form: perhaps a minus sign, then a zero alone or digits of
which the first is no zero. Too many digits are too many whatever follows them. -/
def plainInteger? (t : Text) : Option (Checked Int) :=
  let (negative, unsigned) : Bool × Text := match t with
    | .char '-' :: rest => (true, rest)
    | t => (false, t)
  match Text.spanDigits unsigned with
  | ([], _) => none
  | (0 :: more, rest) => if more.isEmpty && rest.isEmpty then some (.ok 0) else none
  | (ds, rest) =>
    if digitLimit < ds.length then some (.fail .intParsingSize)
    else if rest.isEmpty then
      some (.ok (if negative then -(Text.numberOf ds : Int) else Text.numberOf ds))
    else none

/-- What is left of a text when zeros and underscores at its head are dropped; `last` is the one that
came last. One of them stays before a point and at the end. -/
def afterZeros (last : CodePoint) : Text → Option Text
  | [] => some [last]
  | c :: rest =>
    if c = '0' ∨ c = '_' then afterZeros c rest
    else if c = '.' then some (last :: c :: rest)
    else if c.digit?.isSome ∨ c = '-' then some (c :: rest)
    else none

def withoutZeros : Text → Option Text
  | [] => none
  | c :: rest =>
    if c = '0' then afterZeros c rest else if c.digit?.isSome then some (c :: rest) else none

def withoutFraction (t : Text) : Text :=
  match t.dropWhile (· ≠ .char '.') with
  | [] => t
  | _ :: zeros =>
    if zeros ≠ [] ∧ zeros.all (· = .char '0') then t.takeWhile (· ≠ .char '.') else t

def hasDouble : Text → Bool
  | c :: d :: rest => (c = '_' && d = '_') || hasDouble (d :: rest)
  | _ => false

/-- A text without its underscores, if each of them stands alone between two other code points. -/
def withoutUnderscores (t : Text) : Text :=
  if t.head? = some (.char '_') ∨ t.getLast? = some (.char '_') ∨ hasDouble t then t
  else t.filter (· ≠ .char '_')

/-- A text brought into plain form: blanks, a plus sign, zeros at the head, a fraction of zeros and
underscores are dropped. -/
def plainForm? (t : Text) : Option Text := do
  let (negative, unsigned) := splitSign (t.trimmed CodePoint.isBlank)
  let digits := withoutUnderscores (withoutFraction (← withoutZeros unsigned))
  return if negative then .char '-' :: digits else digits

/-- The integer that a text spells, as it stands or brought into plain form. -/
def integerText (t : Text) : Checked Int :=
  if t.all CodePoint.isChar then
    (((plainInteger? t).or ((plainForm? t).bind plainInteger?)).getD (.fail .intParsing))
  else .fail .stringUnicode

/-- An integer, or what counts as one. A whole number counts when it is smaller than `2 ^ 63`. -/
def integer : Value → Checked Int
  | .int n => .ok n
  | .bool b => .ok (if b then 1 else 0)
  | .float x =>
    if x.isFinite then
      match x.toInt? with
      | some n => if -Int.pow 2 63 < n ∧ n < Int.pow 2 63 then .ok n else .fail .intParsingSize
      | none => .fail .intFromFloat
    else .fail .finiteNumber
  | .text t => integerText t
  | .bytes octets =>
    match Utf8.decode false 0 octets with
    | .ok t => integerText t
    | .error _ => .fail .intParsing
  | _ => .fail .intType

def optionalInteger : Value → Checked Value
  | .null => .ok .null
  | v => (integer v).map .int

/-! ## Booleans -/

def falseWords : List Text := ["0", "off", "f", "false", "n", "no"]

def trueWords : List Text := ["1", "on", "t", "true", "y", "yes"]

def booleanText (t : Text) : Checked Bool :=
  if t.all CodePoint.isChar then
    let word := t.map CodePoint.asciiLower
    if word ∈ falseWords then .ok false
    else if word ∈ trueWords then .ok true
    else .fail .boolParsing
  else .fail .stringUnicode

def booleanInteger (n : Int) : Checked Bool :=
  if n = 0 then .ok false else if n = 1 then .ok true else .fail .boolParsing

/-- The boolean that a value stands for. Only an integer that is held in 64 bits can stand for one. -/
def boolean (held : Int → Bool) : Value → Checked Bool
  | .bool b => .ok b
  | .int n => if held n then booleanInteger n else .fail .boolType
  | .float x =>
    match x.toInt? with
    | some n => if -Int.pow 2 63 < n ∧ n < Int.pow 2 63 then booleanInteger n else .fail .boolType
    | none => .fail .boolType
  | .text t => booleanText t
  | .bytes octets =>
    match Utf8.decode false 0 octets with
    | .ok t => booleanText t
    | .error _ => .fail .boolParsing
  | _ => .fail .boolType

end MessageBus.Check
