import MessageBus.Codec
import MessageBus.Connector

/-!
# Sending messages

A message is stamped with the time, looked up its destination for, written and handed over. What is
sent to a queue gets the ID that the service answers; what is published to a topic gets a new identifier
before it is written. A message without ID says so in a property.
-/

namespace MessageBus.Action

variable {σ : Type}

/-- A wire form; that there is none leaves a log line. -/
def written : Except BusError Text → Action σ Text
  | .ok wire => pure wire
  | .error e => do
    log .error .codec e.message
    throw (.bus e)

/-- The wire form of a message object. -/
def serialize (m : Message Value) : Action σ Text := do
  written (Codec.serialize (m.map (← get).store.expanded))

def serializeObject (x : Value) : Action σ Text := do
  match ← find? x with
  | some o =>
    let o := o.map (← get).store.expanded
    written (Codec.serializeFields o.type o.fields)
  | none => throw .attribute

/-- Notes on a message that it gets no ID, and the time of sending, unless it wants none. -/
def stamp (x : Value) : Action σ Ref := do
  let (ref, m) ← message x
  if m.disableMessageId.truthy then
    changeMessage ref (·.withProperty idDisabledKey (.bool true))
  if !m.disableTimestamp.truthy then
    let now := (← get).wallClock
    changeMessage ref fun m => .ok { m with timestamp := .int now }
  pure ref

/-- Gives a message its ID unless it wants none. -/
def assignId (ref : Ref) (id : Except Fault Text) : Action σ Unit :=
  changeMessage ref fun m => do
    if m.disableMessageId.truthy then .ok m else .ok { m with messageId := .text ("ID:" ++ (← id)) }

/-- The log line that tells where a message was published. -/
def publishedLine (id arn : Except Fault Text) : Except Fault Text := do
  .ok ("Published message " ++ (← id) ++ " to SNS " ++ (← arn))

variable [Service σ]

def sendToQueue (queue : Ref) (q : Queue) (ref : Ref) : Action σ Unit := do
  let url ← urlOf queue q
  let (_, m) ← message (.shared ref)
  let wire ← serialize m
  let answer ← request (url.inWords.map fun t => "Unable to send message to queue " ++ t) (.sendMessage url wire)
  let id ← lift (answer.item "MessageId")
  assignId ref id.inWords
  logTold .info .connector (id.inWords.map fun t => "Sent message to SQS " ++ t)

def publish (topic : Ref) (t : Topic) (ref : Ref) : Action σ Unit := do
  let arn ← arnOf topic t
  let (_, m) ← message (.shared ref)
  if !m.disableMessageId.truthy then
    let id ← identifier
    assignId ref (.ok id)
  let (_, m) ← message (.shared ref)
  let wire ← serialize m
  let _ ← request (arn.inWords.map fun t => "Unable to send message to topic: " ++ t) (.publish arn wire)
  let id ← words m.messageId
  logTold .info .connector (publishedLine id arn.inWords)

/-- Sends a message to a queue or a topic. -/
def send (destination x : Value) : Action σ Unit := do
  if destination.isNull then refuse .invalidArgument "Destination is null"
  else
    let ref ← stamp x
    match destination, ← find? destination with
    | .shared queue, some (.queue q) => sendToQueue queue q ref
    | .shared topic, some (.topic t) => publish topic t ref
    | _, _ => refuse .internal ("Invalid destination: " ++ (← typeName destination))

def sendAll (destination : Value) : List Value → Action σ Unit
  | [] => pure ()
  | x :: xs => do
    send destination x
    sendAll destination xs

end MessageBus.Action
