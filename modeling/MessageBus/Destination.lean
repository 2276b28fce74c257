import MessageBus.Check.Scalar
import MessageBus.Value.Telling

/-!
# Destinations

A message goes to a queue, which one receiver takes it from, or to a topic, which passes it on to
subscribers. Each has a name and, once the service was asked, a handle: the URL of a queue, the ARN of
a topic. `Queue.check` and `Topic.check` say which values describe one; a queue that is given by its
URL alone takes its name from it.

The fields are dynamic values, since a caller may overwrite them with anything later.
-/

namespace MessageBus

/-- A point-to-point destination. -/
structure Queue where
  kind : Value
  name : Value
  url : Value
deriving Inhabited

/-- A publish-only destination. -/
structure Topic where
  kind : Value
  name : Value
  arn : Value
deriving Inhabited

/-- A queue or a topic. -/
inductive Destination where
  | queue (q : Queue)
  | topic (t : Topic)
deriving Inhabited

namespace Queue

def named (name : Text) : Queue := ⟨.text "queue", .text name, .null⟩

/-- The part of a URL after its last slash, slashes at its end aside. -/
def nameOfUrl (url : Text) : Text := (url.trimmedEnd (· = .char '/')).afterLast '/'

def map (f : Value → Value) (q : Queue) : Queue := ⟨f q.kind, f q.name, f q.url⟩

def fields (q : Queue) : List (Text × Value) :=
  [("kind", q.kind), ("name", q.name), ("queue_url", q.url)]

def toValue (q : Queue) : Value := Value.ofFields q.fields

def label (q : Queue) : Except Fault Text := (Value.record .queue q.fields).inWords

/-- A queue with a name: its own, or the one that its URL ends in. -/
def withName (kind name url : Value) : Checked Queue :=
  match name, url with
  | .null, .null => .fail (.valueError "Value error, A queue needs a name or a queue_url")
  | .null, .text u => .ok ⟨kind, .text (nameOfUrl u), url⟩
  | name, url => .ok ⟨kind, name, url⟩

def ofEntries (entries : List (Value × Value)) : Checked Queue := do
  let (kind, name, url) ←
    (((Checked.right fun kind name url => (kind, name, url)).apply
      (Checked.under ["kind"] (Check.literal "queue" ((Value.lookup "kind" entries).getD (.text "queue"))))).apply
      (Checked.under ["name"] (Check.optionalText ((Value.lookup "name" entries).getD .null)))).apply
      (Checked.under ["queue_url"] (Check.optionalText ((Value.lookup "queue_url" entries).getD .null)))
  withName kind name url

/-- The queue that a value describes. -/
def check : Value → Checked Queue
  | .dict entries => ofEntries entries
  | _ => .fail .modelType

end Queue

namespace Topic

def named (name : Text) : Topic := ⟨.text "topic", .text name, .null⟩

def map (f : Value → Value) (t : Topic) : Topic := ⟨f t.kind, f t.name, f t.arn⟩

def fields (t : Topic) : List (Text × Value) :=
  [("kind", t.kind), ("name", t.name), ("arn", t.arn)]

def toValue (t : Topic) : Value := Value.ofFields t.fields

def label (t : Topic) : Except Fault Text := (Value.record .topic t.fields).inWords

def ofEntries (entries : List (Value × Value)) : Checked Topic :=
  (((Checked.right Topic.mk).apply
    (Checked.under ["kind"] (Check.literal "topic" ((Value.lookup "kind" entries).getD (.text "topic"))))).apply
    (Checked.under ["name"] (Check.requiredText (Value.lookup "name" entries)))).apply
    (Checked.under ["arn"] (Check.optionalText ((Value.lookup "arn" entries).getD .null)))

/-- The topic that a value describes. -/
def check : Value → Checked Topic
  | .dict entries => ofEntries entries
  | _ => .fail .modelType

end Topic

/-- Where a checked value comes from: a caller, or a JSON text that was just read. -/
inductive Origin where
  | caller
  | json
deriving DecidableEq

/-- Whether an integer is held in 64 bits. One that was just read is if it has no more than 18 digits. -/
def Origin.holds : Origin → Int → Bool
  | .caller, n => -Int.pow 2 63 ≤ n ∧ n < Int.pow 2 63
  | .json, n => n.natAbs < Nat.pow 10 18

namespace Destination

def toValue : Destination → Value
  | .queue q => q.toValue
  | .topic t => t.toValue

def label : Destination → Except Fault Text
  | .queue q => q.label
  | .topic t => t.label

/-- The destination that entries describe: their `kind` says which one. -/
def ofEntries (entries : List (Value × Value)) : Checked Destination :=
  match Value.lookup "kind" entries with
  | none => .fail .unionTagNotFound
  | some (.text kind) =>
    if kind = "queue" then Checked.under ["queue"] ((Queue.ofEntries entries).map .queue)
    else if kind = "topic" then Checked.under ["topic"] ((Topic.ofEntries entries).map .topic)
    else .fail .unionTagInvalid
  | some _ => .fail .unionTagInvalid

/-- The destination that a value describes, or none for `null`. -/
def check (origin : Origin) : Value → Checked (Option Destination)
  | .null => .ok none
  | .dict entries => (ofEntries entries).map some
  | _ =>
    match origin with
    | .caller => .fail .modelAttributesType
    | .json => .fail .dictType

end Destination

end MessageBus
