import MessageBus.Json.Reader
import MessageBus.Json.Writer
import MessageBus.Message
import MessageBus.Text.Wide

/-!
# Wire forms

`Codec.serialize` gives the wire form of a message, the compact JSON text of its fields, and checks it:
a wire form is only handed out when it describes an equal message again. `Codec.deserialize` gives the
message that a payload describes. Both fail with a serialization error only, and the context of that
error tells the stage that failed.
-/

namespace MessageBus.Codec

/-! ## Writing -/

def wireForm (type : ObjectType) (fields : List (Text × Value)) : Except Json.Unwritable Text :=
  Json.writeValue Json.writableDepth (.record type fields)

def writeError (type : ObjectType) (detail : Detail) : BusError :=
  ⟨.serialization, "Unable to serialize message of type " ++ type.name, detail⟩

def dataOf (v : Value) : ObjectType → Checked Value
  | .queue => (Queue.check v).map Queue.toValue
  | .topic => (Topic.check v).map Topic.toValue
  | .message => (Message.check .json v).map (·.described.toValue)
  | .standIn => (Message.checkStandIn .json v).map (·.described.toValue)

def describedBy (type : ObjectType) (wire : Text) : Checked Value :=
  match Json.read .check wire with
  | .error _ => .fail .jsonInvalid
  | .ok v => dataOf v type

def serializeFields (type : ObjectType) (fields : List (Text × Value)) : Except BusError Text :=
  match wireForm type fields with
  | .error u => .error (writeError type (.unserializable u.reason))
  | .ok wire =>
    match describedBy type wire with
    | .error issues => .error (writeError type (.invalid issues))
    | .ok read =>
      if read.same (Value.ofFields fields).data then .ok wire
      else .error (writeError type (.plain (.text "message does not survive a JSON round trip")))

/-- The wire form of a message, if it describes an equal message. The message holds no shared objects. -/
def serialize (m : Message Value) : Except BusError Text := serializeFields m.type m.fields

/-! ## Reading -/

def decoded : Except Json.ReadError Value → Except Detail Value
  | .ok v => .ok v
  | .error .tooDeep => .error .tooDeep
  | .error e => .error (.plain (.text e.message))

/-- The value that a payload, a text or octets, spells in JSON. The mark that may stand before octets is
no part of what they spell. -/
def decodePayload : Value → Except Detail Value
  | .text t => decoded (Json.readUnmarked .payload t)
  | .bytes octets =>
    match Text.ofOctets octets with
    | .ok t => decoded (Json.read .payload t)
    | .error u => .error (.plain (.text u.message))
  | v => .error (.plain (.text ("the JSON object must be str, bytes or bytearray, not " ++ v.typeName)))

/-- The context of the error of a payload that is no JSON. -/
def undecodable : Text := "Unable to deserialize message"

/-- The message that a decoded value describes. -/
def ofDecoded (v : Value) : Except BusError (Message (Option Destination)) :=
  let expected : Text := "Expected object of type MessageDTO, got"
  match v with
  | .null => .error ⟨.serialization, "Deserialized object is null", .none⟩
  | v =>
    match v.field? "kind" with
    | some (.text kind) =>
      if kind = "message" then
        match Message.check .caller v with
        | .ok m => .ok m
        | .error issues => .error ⟨.serialization, expected ++ " an invalid message", .invalid issues⟩
      else .error ⟨.serialization, expected ++ ": " ++ v.typeName, .none⟩
    | _ => .error ⟨.serialization, expected ++ ": " ++ v.typeName, .none⟩

/-- The message that a payload describes. -/
def deserialize (payload : Value) : Except BusError (Message (Option Destination)) :=
  match decodePayload payload with
  | .error detail => .error ⟨.serialization, undecodable, detail⟩
  | .ok v => ofDecoded v

end MessageBus.Codec
