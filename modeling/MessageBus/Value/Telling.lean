import MessageBus.Error

/-!
# Values in words

What is said of a value within an error or a line is its text (`Value.shown`), as long as it can be put into words.
An integer with too many digits cannot, nor can what holds too many values within each other. What stands in the way
first is the fault.
-/

namespace MessageBus.Value

/-- How many digits an integer may have that is put into words. -/
def digitsInWords : Nat := 4300

/-- How many values may lie within each other that are put into words. -/
def levelsInWords : Nat := 990

def tooManyDigits : Fault :=
  .outOfRange "Exceeds the limit (4300 digits) for integer string conversion; use sys.set_int_max_str_digits() to increase the limit"

/-- Why a value cannot be listed with so many levels left, if it cannot. An object that is left in it lies within
itself, and so is listed without end. -/
def unlisted? : (levels : Nat) → Value → Option Fault
  | 0, _ => some .tooNested
  | levels + 1, v =>
    match v with
    | .int n => if digitsInWords < (Nat.toDigits 10 n.natAbs).length then some tooManyDigits else none
    | .list items => items.findSome? (unlisted? levels)
    | .tuple items => items.findSome? (unlisted? levels)
    | .set items => items.findSome? (unlisted? levels)
    | .dict entries => entries.findSome? fun e => (unlisted? levels e.1).or (unlisted? levels e.2)
    | .record _ fields => fields.findSome? fun field => unlisted? levels field.2
    | .shared _ => some .tooNested
    | _ => none

/-- Why a value has no text of its own with so many levels left, if it has none. -/
def untold? : (levels : Nat) → Value → Option Fault
  | 0, _ => some .tooNested
  | levels + 1, v =>
    match v with
    | .text _ => none
    | .record .queue fields => (fields.lookup ("name" : Text)).bind (untold? levels)
    | .record .topic fields => (fields.lookup ("name" : Text)).bind (untold? levels)
    | v => unlisted? (levels + 1) v

/-- The text of a value, if it can be put into words. -/
def inWords (v : Value) : Except Fault Text :=
  match untold? levelsInWords v with
  | some fault => .error fault
  | none => .ok v.shown

end MessageBus.Value
