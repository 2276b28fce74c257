import MessageBus.Number.Double
import MessageBus.Text

/-!
# Values

What a message can carry and what a remote service can answer. A JSON value is built from `null`,
booleans, numbers, texts, lists and dictionaries with texts as keys; a caller can also put octets,
tuples, sets, dictionaries with other keys, objects of the bus and objects without a form of their own
into a message.

An object of the bus occurs in two ways. As long as others hold it too it is `shared`, known by a number;
what is to be seen of it at one moment is a `record` of its fields.
-/

namespace MessageBus

/-- The types of the objects that the bus makes. -/
inductive ObjectType where
  | queue
  | topic
  | message
  | standIn
deriving DecidableEq

def ObjectType.name : ObjectType → Text
  | .queue => "QueueDestination"
  | .topic => "TopicDestination"
  | .message => "MessageDTO"
  | .standIn => "InvalidMessageDTO"

/-- A dynamic value. A dictionary keeps its entries in the order in which their keys came. -/
inductive Value where
  | null
  | bool (b : Bool)
  | int (n : Int)
  | float (x : Double)
  | text (t : Text)
  | bytes (octets : List UInt8)
  | list (items : List Value)
  | tuple (items : List Value)
  | set (items : List Value)
  | dict (entries : List (Value × Value))
  | record (type : ObjectType) (fields : List (Text × Value))
  | shared (ref : Nat)
  | object
deriving Inhabited

namespace Value

def typeName : Value → Text
  | .null => "NoneType"
  | .bool _ => "bool"
  | .int _ => "int"
  | .float _ => "float"
  | .text _ => "str"
  | .bytes _ => "bytes"
  | .list _ => "list"
  | .tuple _ => "tuple"
  | .set _ => "set"
  | .dict _ => "dict"
  | .record type _ => type.name
  | .shared _ => "object"
  | .object => "object"

/-- Whether the value counts as true: zeros, `null` and what is empty do not. -/
def truthy : Value → Bool
  | .null => false
  | .bool b => b
  | .int n => n != 0
  | .float x => x.toRat? != some 0
  | .text t => !t.isEmpty
  | .bytes octets => !octets.isEmpty
  | .list items => !items.isEmpty
  | .tuple items => !items.isEmpty
  | .set items => !items.isEmpty
  | .dict entries => !entries.isEmpty
  | .record _ _ => true
  | .shared _ => true
  | .object => true

def isNull : Value → Bool
  | .null => true
  | _ => false

/-- The rational number that a finite number or a boolean denotes. -/
def toRat? : Value → Option Rat
  | .bool b => some (if b then 1 else 0)
  | .int n => some n
  | .float x => x.toRat?
  | _ => none

/-! ## Equality -/

/-- Whether a number or boolean equals a value: by what they denote, so that `1`, `1.0` and `true`
are equal. NaN equals nothing. -/
def sameNumber (a b : Value) : Bool :=
  match a, b with
  | .float (.infinite m), .float (.infinite n) => m == n
  | a, b =>
    match a.toRat?, b.toRat? with
    | some x, some y => x == y
    | _, _ => false

mutual

/-- Whether two values are equal: numbers by what they denote, lists and tuples item by item, sets and
dictionaries without regard to order. -/
def same : Value → Value → Bool
  | .null, b => b.isNull
  | .bool x, b => sameNumber (.bool x) b
  | .int n, b => sameNumber (.int n) b
  | .float x, b => sameNumber (.float x) b
  | .text t, .text u => t == u
  | .bytes x, .bytes y => x == y
  | .list xs, .list ys => sameItems xs ys
  | .tuple xs, .tuple ys => sameItems xs ys
  | .set xs, .set ys => xs.length == ys.length && allAmong xs ys
  | .dict xs, .dict ys => xs.length == ys.length && allEntriesAmong xs ys
  | _, _ => false

def sameItems : List Value → List Value → Bool
  | [], [] => true
  | x :: xs, y :: ys => same x y && sameItems xs ys
  | _, _ => false

def allAmong : List Value → List Value → Bool
  | [], _ => true
  | x :: xs, ys => ys.any (same x) && allAmong xs ys

/-- Whether every one of some entries equals one of others in key and value. -/
def allEntriesAmong : List (Value × Value) → List (Value × Value) → Bool
  | [], _ => true
  | (k, v) :: xs, ys => ys.any (fun y => same k y.1 && same v y.2) && allEntriesAmong xs ys

end

/-! ## Nesting -/

mutual

/-- How many containers surround the innermost part of a value; an empty container counts as a leaf. -/
def depth : Value → Nat
  | .list (x :: xs) => 1 + depthItems (x :: xs)
  | .tuple (x :: xs) => 1 + depthItems (x :: xs)
  | .set (x :: xs) => 1 + depthItems (x :: xs)
  | .dict (e :: es) => 1 + depthEntries (e :: es)
  | _ => 0

def depthItems : List Value → Nat
  | [] => 0
  | x :: xs => max (depth x) (depthItems xs)

def depthEntries : List (Value × Value) → Nat
  | [] => 0
  | (_, v) :: es => max (depth v) (depthEntries es)

end

/-! ## Entries under texts -/

def lookup (key : Text) : List (Value × Value) → Option Value
  | [] => none
  | (.text k, v) :: rest => if k = key then some v else lookup key rest
  | _ :: rest => lookup key rest

/-- Entries with `v` under a text, at the place of the key's first occurrence or at the end. -/
def store (key : Text) (v : Value) : List (Value × Value) → List (Value × Value)
  | [] => [(.text key, v)]
  | (.text k, w) :: rest => if k = key then (.text k, v) :: rest else (.text k, w) :: store key v rest
  | e :: rest => e :: store key v rest

/-- A stored value is found under its own key, and no other key finds anything new. -/
theorem lookup_store (key other : Text) (v : Value) (entries : List (Value × Value)) :
    lookup other (store key v entries) = if other = key then some v else lookup other entries := by
  induction entries with
  | nil => simp [store, lookup, eq_comm]
  | cons e rest ih =>
    obtain ⟨k, w⟩ := e
    cases k with
    | text k =>
      by_cases hk : k = key
      · subst hk
        by_cases ho : other = k <;> simp [store, lookup, ho, eq_comm]
      · by_cases ho : k = other
        · subst ho
          simp [store, lookup, hk]
        · simp [store, lookup, hk, ho, ih]
    | _ => simpa [store, lookup] using ih

def ofFields (fields : List (Text × Value)) : Value := .dict (fields.map fun (k, v) => (.text k, v))

/-- The dictionary of entries in the order in which they come: the last one under a key counts, at the
place of the first. -/
def ofEntries (entries : List (Text × Value)) : Value :=
  .dict (entries.foldl (fun read e => store e.1 e.2 read) [])

def field? (v : Value) (key : Text) : Option Value :=
  match v with
  | .dict entries => lookup key entries
  | .record _ fields => fields.lookup key
  | _ => none

/-! ## Objects within values -/

mutual

def replaceShared (f : Nat → Value) : Value → Value
  | .list items => .list (replaceSharedItems f items)
  | .tuple items => .tuple (replaceSharedItems f items)
  | .set items => .set (replaceSharedItems f items)
  | .dict entries => .dict (replaceSharedEntries f entries)
  | .record type fields => .record type (replaceSharedFields f fields)
  | .shared ref => f ref
  | v => v

def replaceSharedItems (f : Nat → Value) : List Value → List Value
  | [] => []
  | v :: vs => replaceShared f v :: replaceSharedItems f vs

def replaceSharedEntries (f : Nat → Value) : List (Value × Value) → List (Value × Value)
  | [] => []
  | (k, v) :: es => (k, replaceShared f v) :: replaceSharedEntries f es

def replaceSharedFields (f : Nat → Value) : List (Text × Value) → List (Text × Value)
  | [] => []
  | (k, v) :: fields => (k, replaceShared f v) :: replaceSharedFields f fields

end

mutual

/-- The value with a dictionary of its fields in place of each record. -/
def data : Value → Value
  | .list items => .list (dataItems items)
  | .tuple items => .tuple (dataItems items)
  | .set items => .set (dataItems items)
  | .dict entries => .dict (dataEntries entries)
  | .record _ fields => .dict (dataFields fields)
  | v => v

def dataItems : List Value → List Value
  | [] => []
  | v :: vs => data v :: dataItems vs

def dataEntries : List (Value × Value) → List (Value × Value)
  | [] => []
  | (k, v) :: es => (k, data v) :: dataEntries es

/-- The entries that fields come to, with a dictionary in place of each record. -/
def dataFields : List (Text × Value) → List (Value × Value)
  | [] => []
  | (k, v) :: fields => (.text k, data v) :: dataFields fields

end

end Value

end MessageBus
