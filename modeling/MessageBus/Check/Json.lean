import MessageBus.Check.Scalar

/-!
# Checks of JSON values

A body or a property holds a JSON value with finite numbers only, nested no deeper than so many
levels. A key that spells a text counts as that text.
-/

namespace MessageBus.Check

/-- How many containers may surround a part of a body or property. -/
def nestingLimit : Nat := 254

def key (k : Value) : Checked Text := (text k).under [Step.ofKey k, "[key]"]

mutual

/-- A JSON value that may hold so many levels of filled containers. -/
def json : (levels : Nat) → Value → Checked Value
  | _, .null => .ok .null
  | _, .bool b => .ok (.bool b)
  | _, .int n => .ok (.int n)
  | _, .float x => if x.isFinite then .ok (.float x) else Checked.under ["float"] (.fail .finiteNumber)
  | _, .text t => .ok (.text t)
  | levels, .list items => Checked.under ["list"] ((jsonItems levels 0 items).map Value.list)
  | levels, .dict entries =>
    Checked.under ["dict"] ((jsonEntries levels entries).map Value.ofEntries)
  | _, .bytes _ => .fail .invalidJsonValue
  | _, .tuple _ => .fail .invalidJsonValue
  | _, .set _ => .fail .invalidJsonValue
  | _, .record _ _ => .fail .invalidJsonValue
  | _, .shared _ => .fail .invalidJsonValue
  | _, .object => .fail .invalidJsonValue

def jsonItems : (levels : Nat) → (index : Nat) → List Value → Checked (List Value)
  | _, _, [] => .ok []
  | 0, i, _ :: vs =>
    Checked.both List.cons (Checked.under [.index i] (.fail .recursionDepthExceeded)) (jsonItems 0 (i + 1) vs)
  | levels + 1, i, v :: vs =>
    Checked.both List.cons (Checked.under [.index i] (json levels v)) (jsonItems (levels + 1) (i + 1) vs)

def jsonEntries : (levels : Nat) → List (Value × Value) → Checked (List (Text × Value))
  | _, [] => .ok []
  | 0, (k, _) :: es =>
    Checked.both List.cons
      (Checked.both Prod.mk (key k) (Checked.under [Step.ofKey k] (.fail .recursionDepthExceeded)))
      (jsonEntries 0 es)
  | levels + 1, (k, v) :: es =>
    Checked.both List.cons
      (Checked.both Prod.mk (key k) (Checked.under [Step.ofKey k] (json levels v)))
      (jsonEntries (levels + 1) es)

end

def body (v : Value) : Checked Value := json nestingLimit v

/-- The property bag of a message: texts as keys, JSON values under them. -/
def properties : Value → Checked Value
  | .dict entries => (jsonEntries (nestingLimit + 1) entries).map Value.ofEntries
  | _ => .fail .dictType

end MessageBus.Check
