import MessageBus.Check.Json
import MessageBus.Destination
import MessageBus.Value.Access
import MessageBus.Value.Telling

/-!
# Messages

A message carries a body, a bag of properties and the data of its delivery. A stand-in takes the place
of a received message that could not be read: it has no body, and keeps a diagnosis of why.

`Message δ` is open in the type of its destination: the reader of payloads gives a described
destination, and a message in a store has any value there, as a rule a shared queue or topic. The other
fields are dynamic values too, since a caller may overwrite them with anything.
-/

namespace MessageBus

/-- Why a stand-in has no body. -/
structure Diagnosis where
  error : Value
  context : Value
  detail : Detail

/-- A message with a destination of type `δ`. -/
structure Message (δ : Type) where
  kind : Value
  body : Value
  properties : Value
  messageId : Value
  timestamp : Value
  disableMessageId : Value
  disableTimestamp : Value
  correlationId : Value
  messageType : Value
  destination : δ
  /-- Present in a stand-in. -/
  diagnosis : Option Diagnosis

/-- The property that tells a receiver to assign no ID. -/
def idDisabledKey : Text := "DisableMessageID"

/-- The property that holds the receipt handle of a received message. -/
def receiptKey : Text := "SQSReceiptHandle"

namespace Diagnosis

def ofError (e : BusError) : Diagnosis := ⟨.text e.message, .text e.context, e.detail⟩

/-- The context of the error behind a stand-in: its own, or all that is known. -/
def causeContext (d : Diagnosis) : Value := if d.context.truthy then d.context else d.error

def causeMessage (d : Diagnosis) : Except Fault Value :=
  if d.detail.isTold then do .ok (.text ((← d.causeContext.inWords) ++ ": " ++ (← d.detail.words.inWords)))
  else .ok d.causeContext

def map (f : Value → Value) (d : Diagnosis) : Diagnosis :=
  ⟨f d.error, f d.context, match d.detail with
    | .plain words => .plain (f words)
    | detail => detail⟩

end Diagnosis

namespace Message

variable {δ ε : Type}

def mapDestination (f : δ → ε) (m : Message δ) : Message ε :=
  { m with destination := f m.destination }

def map (f : Value → Value) (m : Message Value) : Message Value :=
  { kind := f m.kind, body := f m.body, properties := f m.properties, messageId := f m.messageId,
    timestamp := f m.timestamp, disableMessageId := f m.disableMessageId,
    disableTimestamp := f m.disableTimestamp, correlationId := f m.correlationId,
    messageType := f m.messageType, destination := f m.destination,
    diagnosis := m.diagnosis.map (·.map f) }

def type (m : Message δ) : ObjectType := if m.diagnosis.isSome then .standIn else .message

def typeName (m : Message δ) : Text := m.type.name

/-! ## Properties -/

/-- The property under a key, or `fallback`. Only a dictionary has properties. -/
def property (m : Message δ) (key : Text) (fallback : Value) : Except Fault Value :=
  match m.properties with
  | .dict entries => .ok ((Value.lookup key entries).getD fallback)
  | _ => .error .attribute

def withProperty (m : Message δ) (key : Text) (v : Value) : Except Fault (Message δ) :=
  match m.properties with
  | .dict entries => .ok { m with properties := .dict (Value.store key v entries) }
  | _ => .error .type

/-- Whether there is a property under a key. In place of a dictionary another container is asked for the
key as its item, and a text for it as its part. -/
def hasProperty (m : Message δ) (key : Text) : Except Fault Bool := m.properties.contains key

/-- The receipt handle, `null` for a message that was not received. -/
def receiptHandle (m : Message δ) : Except Fault Value := m.property receiptKey .null

def isIdDisabled (m : Message δ) : Except Fault Bool :=
  (m.property idDisabledKey (.bool false)).map Value.truthy

/-! ## Fields -/

def diagnosisFields : Option Diagnosis → List (Text × Value)
  | none => []
  | some d => [("error", d.error), ("error_context", d.context), ("error_detail", d.detail.words)]

def fields (m : Message Value) : List (Text × Value) :=
  ("kind", m.kind) :: ("body", m.body) :: ("properties", m.properties) ::
    ("message_id", m.messageId) :: ("timestamp", m.timestamp) ::
    ("disable_message_id", m.disableMessageId) :: ("disable_timestamp", m.disableTimestamp) ::
    ("correlation_id", m.correlationId) :: ("message_type", m.messageType) ::
    ("destination", m.destination) :: diagnosisFields m.diagnosis

def toValue (m : Message Value) : Value := Value.ofFields m.fields

/-- The message with the dictionary of its destination in place of it. -/
def described (m : Message (Option Destination)) : Message Value :=
  m.mapDestination fun d => (d.map Destination.toValue).getD .null

/-! ## Messages that values describe -/

def field (entries : List (Value × Value)) (name : Text) (fallback : Value) : Value :=
  (Value.lookup name entries).getD fallback

def diagnosisOf (entries : List (Value × Value)) : Checked Diagnosis :=
  (((Checked.right Diagnosis.mk).apply
    (Checked.under ["error"] (Check.requiredText (Value.lookup "error" entries)))).apply
    (Checked.under ["error_context"] (Check.optionalText (field entries "error_context" .null)))).apply
    (Checked.under ["error_detail"]
      ((Check.optionalText (field entries "error_detail" .null)).map Detail.plain))

/-- The fields of a message that entries describe, but for the diagnosis. -/
def fieldsOf (origin : Origin) (kind : Text) (entries : List (Value × Value)) :
    Checked (Option Diagnosis → Message (Option Destination)) :=
  let body := Checked.under ["body"] (Check.body (field entries "body" .null))
  let properties := Checked.under ["properties"] (Check.properties (field entries "properties" (.dict [])))
  let flag (name : Text) : Checked Value :=
    Checked.under [.key name] ((Check.boolean origin.holds (field entries name (.bool false))).map .bool)
  let optional (name : Text) : Checked Value :=
    Checked.under [.key name] (Check.optionalText (field entries name .null))
  let timestamp := Checked.under ["timestamp"] (Check.optionalInteger (field entries "timestamp" .null))
  let destination := Checked.under ["destination"]
    (Destination.check origin (field entries "destination" .null))
  let start := (Checked.right Message.mk).apply
    (Checked.under ["kind"] (Check.literal kind (field entries "kind" (.text kind))))
  let start := (start.apply body).apply properties
  let start := (start.apply (optional "message_id")).apply timestamp
  let start := (start.apply (flag "disable_message_id")).apply (flag "disable_timestamp")
  let start := (start.apply (optional "correlation_id")).apply (optional "message_type")
  start.apply destination

/-- The message that a value describes. -/
def check (origin : Origin) : Value → Checked (Message (Option Destination))
  | .dict entries => (fieldsOf origin "message" entries).apply (.right none)
  | _ => .fail .modelType

def checkStandIn (origin : Origin) : Value → Checked (Message (Option Destination))
  | .dict entries => (fieldsOf origin "invalid" entries).apply ((diagnosisOf entries).map some)
  | _ => .fail .modelType

/-- The stand-in for a message that could not be read. -/
def standIn (e : BusError) : Message (Option Destination) :=
  { kind := .text "invalid", body := .null, properties := .dict [], messageId := .null,
    timestamp := .null, disableMessageId := .bool false, disableTimestamp := .bool false,
    correlationId := .null, messageType := .null, destination := none,
    diagnosis := some (.ofError e) }

end Message

end MessageBus
