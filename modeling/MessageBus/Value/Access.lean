import MessageBus.Error

/-!
# Asking values

Questions to values whose shape is not known: for a field, an item, a part. What has no answer ends in a
fault: a value without fields or items at all, or without the one that has to be there.
-/

namespace MessageBus.Value

/-- The field of a dictionary under a key, or `fallback`; nothing else has fields to ask for. -/
def get (v : Value) (key : Text) (fallback : Value) : Except Fault Value :=
  match v with
  | .dict entries => .ok ((lookup key entries).getD fallback)
  | _ => .error .attribute

def item (v : Value) (key : Text) : Except Fault Value :=
  match v with
  | .dict entries =>
    match lookup key entries with
    | some v => .ok v
    | none => .error (.missingKey (.text key))
  | _ => .error .type

def occurs (part : Text) : Text → Bool
  | [] => part.isEmpty
  | c :: t => part.isPrefixOf (c :: t) || occurs part t

/-- Whether a text is a key of a dictionary, an item of another container, or a part of a text. An object
of the bus has its fields for items, and none of them is a text. -/
def contains (v : Value) (key : Text) : Except Fault Bool :=
  match v with
  | .dict entries => .ok (lookup key entries).isSome
  | .list items => .ok (items.any (same (.text key)))
  | .tuple items => .ok (items.any (same (.text key)))
  | .set items => .ok (items.any (same (.text key)))
  | .text t => .ok (occurs key t)
  | .record _ _ => .ok false
  | .shared _ => .ok false
  | _ => .error .type

/-- The items of a container one by one: of a dictionary its keys, of a text its code points. -/
def items : Value → Except Fault (List Value)
  | .list vs => .ok vs
  | .tuple vs => .ok vs
  | .set vs => .ok vs
  | .dict entries => .ok (entries.map (·.1))
  | .text t => .ok (t.map fun c => .text [c])
  | .bytes octets => .ok (octets.map fun b => .int b.toNat)
  | _ => .error .type

/-- The first item of a value that counts as true, nothing for other values. A dictionary is asked for
the entry under zero. -/
def first? (v : Value) : Except Fault (Option Value) :=
  if v.truthy then
    match v with
    | .list vs => .ok vs.head?
    | .tuple vs => .ok vs.head?
    | .text t => .ok (t.head?.map fun c => .text [c])
    | .bytes octets => .ok (octets.head?.map fun b => .int b.toNat)
    | .dict entries =>
      match entries.find? (same (.int 0) ·.1) with
      | some (_, v) => .ok (some v)
      | none => .error (.missingKey (.int 0))
    | _ => .error .type
  else .ok none

mutual

/-- Whether a value can be a key: it holds no list, dictionary or set, and no object of the bus. -/
def isKey : Value → Bool
  | .list _ => false
  | .dict _ => false
  | .set _ => false
  | .record _ _ => false
  | .shared _ => false
  | .tuple vs => areKeys vs
  | _ => true

def areKeys : List Value → Bool
  | [] => true
  | v :: vs => isKey v && areKeys vs

end

end MessageBus.Value
