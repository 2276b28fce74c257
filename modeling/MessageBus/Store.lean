import MessageBus.Message

/-!
# The store of shared objects

Queues, topics and messages are objects that several holders share: what one of them changes, all see.
A value refers to a shared object by its number. `Store.expanded` tells such an object by its fields
wherever a value holds it.
-/

namespace MessageBus

abbrev Ref := Nat

/-- A shared object. -/
inductive Object where
  | queue (q : Queue)
  | topic (t : Topic)
  | message (m : Message Value)

def Destination.object : Destination → Object
  | .queue q => .queue q
  | .topic t => .topic t

namespace Object

def type : Object → ObjectType
  | .queue _ => .queue
  | .topic _ => .topic
  | .message m => m.type

def fields : Object → List (Text × Value)
  | .queue q => q.fields
  | .topic t => t.fields
  | .message m => m.fields

def map (f : Value → Value) : Object → Object
  | .queue q => .queue (q.map f)
  | .topic t => .topic (t.map f)
  | .message m => .message (m.map f)

def record (o : Object) : Value := .record o.type o.fields

end Object

/-- The shared objects in the order in which they were made. -/
structure Store where
  objects : List Object

namespace Store

def empty : Store := ⟨[]⟩

def object? (s : Store) (ref : Ref) : Option Object := s.objects[ref]?

def replace (s : Store) (ref : Ref) (o : Object) : Store := ⟨s.objects.set ref o⟩

def add (s : Store) (o : Object) : Ref × Store := (s.objects.length, ⟨s.objects ++ [o]⟩)

/-- Replacing an object changes it alone, and makes none where there was none. -/
theorem object?_replace (s : Store) (ref other : Ref) (o : Object) :
    (s.replace ref o).object? other =
      if ref = other then (s.object? other).map fun _ => o else s.object? other := by
  by_cases h : ref = other
  · subst h
    by_cases hr : ref < s.objects.length <;> simp [object?, replace, hr]
  · simp [object?, replace, h]

/-- A new object is found under its number, and the others stay as they were. -/
theorem object?_add (s : Store) (o : Object) (ref : Ref) :
    (s.add o).2.object? ref = if ref = (s.add o).1 then some o else s.object? ref := by
  simp only [object?, add, List.getElem?_append]
  by_cases h : ref < s.objects.length
  · simp [h, Nat.ne_of_lt h]
  · by_cases he : ref = s.objects.length
    · simp [he]
    · have beyond : s.objects.length < ref := Nat.lt_of_le_of_ne (Nat.le_of_not_lt h) (Ne.symm he)
      simp [h, he, Nat.sub_ne_zero_of_lt beyond]

/-- The shared object that a value refers to. -/
def find? (s : Store) : Value → Option Object
  | .shared ref => s.object? ref
  | _ => none

def typeName (s : Store) (v : Value) : Text :=
  match s.find? v with
  | some o => o.type.name
  | none => v.typeName

/-- The value with its objects told by their fields, as far as no more than `depth` of them lie within
each other. -/
def expand (s : Store) : (depth : Nat) → Value → Value
  | 0, v => v
  | depth + 1, v => v.replaceShared fun ref =>
    match s.object? ref with
    | some o => (o.map (s.expand depth)).record
    | none => .shared ref

/-- The value with its objects told by their fields. An object is left only where it lies within itself:
no more objects lie within each other than the store has. -/
def expanded (s : Store) (v : Value) : Value := s.expand s.objects.length v

theorem expanded_text (s : Store) (t : Text) : s.expanded (.text t) = .text t := by
  unfold expanded
  cases s.objects.length <;> simp [expand, Value.replaceShared]

def addDestination (s : Store) : Option Destination → Value × Store
  | none => (.null, s)
  | some d => let (ref, s) := s.add d.object; (.shared ref, s)

/-- The store with a described message and its destination made into objects. -/
def addMessage (s : Store) (m : Message (Option Destination)) : Ref × Store :=
  let (destination, s) := s.addDestination m.destination
  s.add (.message (m.mapDestination fun _ => destination))

end Store

end MessageBus
