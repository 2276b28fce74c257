import MessageBus.Codec
import MessageBus.Connector

/-!
# Receiving messages

A queue is polled until a record arrives or the time is up, with a sleep between two polls and no poll
while the connection is stopped. A record that arrives while the connection is being stopped is released
for other receivers. The record that is kept becomes a message with its receipt handle, and with the
queue it came from as its destination; a record that cannot be read becomes a stand-in.
-/

namespace MessageBus

namespace Action

variable {σ : Type}

/-- The message that a payload describes, or the error; a payload that is no JSON leaves a log line. -/
def read (payload : Value) : Action σ (Except BusError (Message (Option Destination))) := do
  match Codec.decodePayload payload with
  | .error detail =>
    let e : BusError := ⟨.serialization, Codec.undecodable, detail⟩
    log .error .codec e.message
    pure (.error e)
  | .ok v => pure (Codec.ofDecoded v)

/-- The message object that a payload describes. -/
def deserialize (payload : Value) : Action σ Ref := do
  match ← read payload with
  | .ok m => addMessage m
  | .error e => throw (.bus e)

/-- A read message as received: with an ID unless its sender wanted none, with its receipt handle, and
with the queue it came from. -/
def received (record : Value) (queue : Value) (m : Message (Option Destination)) :
    Except Fault (Message Value) := do
  let disabled ← m.isIdDisabled
  let m ← if disabled then .ok m
    else do .ok { m with messageId := .text ("ID:" ++ (← (← record.item "MessageId").inWords)) }
  let m ← m.withProperty receiptKey (← record.item "ReceiptHandle")
  .ok (m.mapDestination fun _ => queue)

/-- The message object of a record that was taken from a queue. -/
def convert (record : Value) (queue : Value) : Action σ Ref := do
  let m ← read (← lift (record.item "Body"))
  let m := match m with
    | .ok m => m
    | .error e => Message.standIn e
  add (.message (← lift (received record queue m)))

variable [Service σ]

/-- The record that the service hands out, if it has one. A record that is `null` is none. -/
def poll (connector : Connector) (queue : Value) (url : Value) : Action σ (Option Value) := do
  let label ← words queue
  let answer ← request (label.map fun t => "Unable to receive message from '" ++ t ++ "'")
    (.receiveMessage url connector.wait)
  let records ← lift (answer.get "Messages" (.list []))
  let record ← lift records.first?
  pure (record.filter (!·.isNull))

/-- Makes a record visible to all receivers again. That this fails is no error: the record becomes
visible by itself later on. -/
def release (url : Value) (record : Value) : Action σ Unit := do
  let handle ← lift (record.item "ReceiptHandle")
  match ← perform (.changeVisibility url handle) with
  | .ok _ => pure ()
  | .error failure =>
    let words ← lift failure.text
    log .warning .connector ("Unable to reset visibility timeout for message: " ++ words)

/-- One round: a poll if the connection is running. A record that arrives when it is no longer running
is released. -/
def round (connector : Connector) (queue : Value) (url : Value) : Action σ (Option Value) := do
  if (← get).running then
    match ← poll connector queue url with
    | none => pure none
    | some record =>
      if (← get).running then pure (some record)
      else
        release url record
        pure none
  else
    log .debug .connector "Not accepting messages. Connection is paused or not started."
    pure none

/-- Rounds with a sleep between two of them, until a record arrives or the time since `start` is up; a
negative timeout never is. Each sleep takes one of `rounds`, which exceeds the patience of the world. -/
def awaitRecord (connector : Connector) (queue : Value) (url : Value) (timeout : Int) (start : Rat) :
    (rounds : Nat) → Action σ (Option Value)
  | 0 => throw .impatient
  | rounds + 1 => do
    match ← round connector queue url with
    | some record => pure (some record)
    | none =>
      if 0 ≤ timeout ∧ (timeout : Rat) ≤ (← get).elapsed - start then pure none
      else
        sleep connector.interval
        awaitRecord connector queue url timeout start rounds

/-- The next message of a queue, or nothing when none arrives in time. -/
def receive (connector : Connector) (queue : Value) (timeout : Int) : Action σ (Option Ref) := do
  let start := (← get).elapsed
  let url ← resolveQueue queue
  match ← awaitRecord connector queue url timeout start ((← get).patience + 1) with
  | none => pure none
  | some record =>
    let id ← lift (record.item "MessageId")
    logTold .info .connector (id.inWords.map fun t => "Received message " ++ t)
    return some (← convert record queue)

/-! ## Acknowledging -/

def receiptOf (m : Message Value) (done : Text) : Action σ Value := do
  let handle ← lift m.receiptHandle
  if handle.isNull then
    refuse .invalidState ("Message does not contain an SQSReceiptHandle, so cannot be " ++ done ++
      ". Did this come from an SQS queue?")
  else pure handle

def originOf (m : Message Value) : Action σ Value := do
  match m.destination, ← find? m.destination with
  | .shared ref, some (.queue q) => urlOf ref q
  | x, _ =>
    if x.isNull then refuse .invalidArgument "Message has no destination"
    else refuse .internal ("Message destination is not a queue: " ++ (← shown x))

/-- What an error says of a message that could not be acknowledged. -/
def acknowledgeContext (attempt : Text) (id handle : Except Fault Text) : Except Fault Text := do
  .ok (attempt ++ " (" ++ (← id) ++ ") with receipt handle " ++ (← handle))

def delete (x : Value) : Action σ Unit := do
  let (_, m) ← message x
  let handle ← receiptOf m "deleted"
  let url ← originOf m
  let handle ← expanded handle
  let id ← words m.messageId
  let _ ← request (acknowledgeContext "Unable to delete message" id handle.inWords) (.deleteMessage url handle)

def reset (x : Value) : Action σ Unit := do
  let (_, m) ← message x
  let handle ← receiptOf m "reset"
  let url ← originOf m
  let handle ← expanded handle
  let id ← words m.messageId
  let _ ← request (acknowledgeContext "Unable to reset message visibility to zero" id handle.inWords)
    (.changeVisibility url handle)

end Action

end MessageBus
