import MessageBus.World

/-!
# Making and overwriting objects

Callers make queues, topics and messages from values that describe them, and may overwrite any field of
what they made with any value, without a check.
-/

namespace MessageBus

/-- What comes of overwriting what is no field of an object. A name that starts with an underscore is kept
apart from the fields; what is `derived` from the fields cannot be overwritten. -/
def overwriteOther {α : Type} (typeName : Text) (derived : List Text) (name : Text) (unchanged : α) :
    Except Fault α :=
  if name.head? = some (.char '_') then .ok unchanged
  else if name ∈ derived ∨ name = "model_extra" ∨ name = "model_fields_set" then .error .attribute
  else .error (.outOfRange ("\"" ++ typeName ++ "\" object has no field \"" ++ name ++ "\""))

namespace Queue

def overwrite (q : Queue) (field : Text) (v : Value) : Except Fault Queue :=
  if field = "kind" then .ok { q with kind := v }
  else if field = "name" then .ok { q with name := v }
  else if field = "queue_url" then .ok { q with url := v }
  else overwriteOther "QueueDestination" ["handle"] field q

end Queue

namespace Topic

def overwrite (t : Topic) (field : Text) (v : Value) : Except Fault Topic :=
  if field = "kind" then .ok { t with kind := v }
  else if field = "name" then .ok { t with name := v }
  else if field = "arn" then .ok { t with arn := v }
  else overwriteOther "TopicDestination" ["handle"] field t

end Topic

namespace Diagnosis

def overwrite? (d : Diagnosis) (field : Text) (v : Value) : Option Diagnosis :=
  if field = "error" then some { d with error := v }
  else if field = "error_context" then some { d with context := v }
  else if field = "error_detail" then some { d with detail := .plain v }
  else none

end Diagnosis

namespace Message

def overwrite (m : Message Value) (field : Text) (v : Value) : Except Fault (Message Value) :=
  if field = "kind" then .ok { m with kind := v }
  else if field = "body" then .ok { m with body := v }
  else if field = "properties" then .ok { m with properties := v }
  else if field = "message_id" then .ok { m with messageId := v }
  else if field = "timestamp" then .ok { m with timestamp := v }
  else if field = "disable_message_id" then .ok { m with disableMessageId := v }
  else if field = "disable_timestamp" then .ok { m with disableTimestamp := v }
  else if field = "correlation_id" then .ok { m with correlationId := v }
  else if field = "message_type" then .ok { m with messageType := v }
  else if field = "destination" then .ok { m with destination := v }
  else
    match m.diagnosis.bind (·.overwrite? field v) with
    | some d => .ok { m with diagnosis := some d }
    | none =>
      let derived : List Text := ["receipt_handle", "is_message_id_disabled"]
      overwriteOther m.typeName (if m.diagnosis.isSome then "cause" :: derived else derived) field m

end Message

namespace Action

variable {σ : Type}

def newQueue (fields : Value) : Action σ Ref := do
  match Queue.check fields with
  | .ok q => add (.queue q)
  | .error issues => throw (.invalid "QueueDestination" issues)

def newTopic (fields : Value) : Action σ Ref := do
  match Topic.check fields with
  | .ok t => add (.topic t)
  | .error issues => throw (.invalid "TopicDestination" issues)

/-- Makes the message that a value describes, a stand-in when its kind says so. -/
def newMessage (fields : Value) : Action σ Ref := do
  let standIn : Bool := match fields.field? "kind" with
    | some (.text kind) => decide (kind = "invalid")
    | _ => false
  let described := if standIn then Message.checkStandIn .caller fields else Message.check .caller fields
  match described with
  | .ok m => addMessage m
  | .error issues => throw (.invalid (if standIn then "InvalidMessageDTO" else "MessageDTO") issues)

/-- Overwrites a field of an object. The field shares the objects in the value that it is overwritten
with. -/
def overwrite (target : Value) (field : Text) (v : Value) : Action σ Unit := do
  match target, ← find? target with
  | .shared ref, some (.queue q) => replace ref (.queue (← lift (q.overwrite field v)))
  | .shared ref, some (.topic t) => replace ref (.topic (← lift (t.overwrite field v)))
  | .shared ref, some (.message m) => replace ref (.message (← lift (m.overwrite field v)))
  | _, _ => throw .attribute

end Action

end MessageBus
