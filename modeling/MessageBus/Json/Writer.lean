import MessageBus.Number.Style
import MessageBus.Text.Utf8
import MessageBus.Value.Access

/-!
# Writing JSON

`Json.writeValue` gives the compact JSON text of a value. What is no JSON value is written by what it is:
octets as the text they spell, tuples and sets as lists, keys of other types as texts, infinite
numbers and NaN as `null`, objects of the bus by their fields. Nothing is written of half a UTF-16 pair, of
octets that are no UTF-8, of an object without a form, of an object that holds itself, and of containers
nested too deep.
-/

namespace MessageBus.Json

/-- Why a value is not written. -/
inductive Unwritable where
  | halves (u : Unencodable)
  | octets (u : Undecodable)
  | object
  /-- A value that cannot be a key stands where a destination tells its kind. -/
  | kind (typeName : Text)
  | circular
  | tooDeep
deriving DecidableEq

def Unwritable.reason : Unwritable → Text
  | .halves u => "Error serializing to JSON: UnicodeEncodeError: " ++ u.message
  | .octets u =>
    "Error serializing to JSON: invalid utf-8 sequence of " ++ Text.ofNat u.count ++
      " bytes from index " ++ Text.ofNat u.position
  | .object => "Unable to serialize unknown type: <class 'object'>"
  | .kind typeName => "Error serializing to JSON: TypeError: unhashable type: '" ++ typeName ++ "'"
  | .circular => "Error serializing to JSON: ValueError: Circular reference detected (id repeated)"
  | .tooDeep => "Error serializing to JSON: ValueError: Maximum serialization depth exceeded"

/-- A code point between quotes: quotes, backslashes and controls are escaped. -/
def escaped (c : CodePoint) : Text :=
  if c = '"' then "\\\""
  else if c = '\\' then "\\\\"
  else if c = '\x08' then "\\b"
  else if c = '\x0c' then "\\f"
  else if c = '\n' then "\\n"
  else if c = '\r' then "\\r"
  else if c = '\t' then "\\t"
  else if c.val < 0x20 then "\\u00" ++ Text.hex 2 c.val
  else [c]

def quote (t : Text) : Text := .char '"' :: (t.flatMap escaped ++ [.char '"'])

def writeText (t : Text) : Except Unwritable Text :=
  match t.unencodable? with
  | none => .ok (quote t)
  | some u => .error (.halves u)

def writeOctets (octets : List UInt8) : Except Unwritable Text :=
  match Utf8.decode false 0 octets with
  | .ok t => .ok (quote t)
  | .error u => .error (.octets u)

/-- The written form of a number, `null` for one that JSON cannot tell. -/
def writeFloat (x : Double) : Text := if x.isFinite then FloatStyle.wire.write x else "null"

def bracketed (first last : Char) (parts : List Text) : Text :=
  .char first :: (Text.joined [.char ','] parts ++ [.char last])

mutual

def keyText : Value → Except Unwritable Text
  | .text t => .ok t
  | .null => .ok "None"
  | .bool b => .ok (if b then "true" else "false")
  | .int n => .ok (Text.ofInt n)
  | .float x => .ok (FloatStyle.wire.write x)
  | .bytes octets =>
    match Utf8.decode false 0 octets with
    | .ok t => .ok t
    | .error u => .error (.octets u)
  | .tuple items => do .ok (Text.joined [.char ','] (← keyTexts items))
  | _ => .error .object

def keyTexts : List Value → Except Unwritable (List Text)
  | [] => .ok []
  | v :: vs => do
    let t ← keyText v
    let ts ← keyTexts vs
    .ok (t :: ts)

end

def writeKey (k : Value) : Except Unwritable Text := do writeText (← keyText k)

/-- The written form of the key of a property: half of a UTF-16 pair is replaced. -/
def writePropertyKey : Value → Except Unwritable Text
  | .text t => .ok (quote t.replaced)
  | k => writeKey k

/-- The ways in which the fields of objects are written. -/
inductive FieldForm where
  | plain
  | body
  | number
  | properties
  /-- As what tells its kind by something that can be a key. -/
  | destination

def formOf (type : ObjectType) (field : Text) : FieldForm :=
  match type with
  | .queue | .topic => .plain
  | .message | .standIn =>
    if field = "body" then .body
    else if field = "timestamp" then .number
    else if field = "properties" then .properties
    else if field = "destination" then .destination
    else .plain

def checkKind (destination : Value) : Except Unwritable Unit :=
  match destination.field? "kind" with
  | some kind => if kind.isKey then .ok () else .error (.kind kind.typeName)
  | none => .ok ()

mutual

/-- The written form of a value that may hold so many levels of filled containers. -/
def writeValue : (levels : Nat) → Value → Except Unwritable Text
  | _, .null => .ok "null"
  | _, .bool b => .ok (if b then "true" else "false")
  | _, .int n => .ok (Text.ofInt n)
  | _, .float x => .ok (writeFloat x)
  | _, .text t => writeText t
  | _, .bytes octets => writeOctets octets
  | _, .object => .error .object
  | _, .shared _ => .error .circular
  | levels, .list items => do .ok (bracketed '[' ']' (← writeItems levels items))
  | levels, .tuple items => do .ok (bracketed '[' ']' (← writeItems levels items))
  | levels, .set items => do .ok (bracketed '[' ']' (← writeItems levels items))
  | levels, .dict entries => do .ok (bracketed '\x7b' '\x7d' (← writeEntries writeKey levels entries))
  | levels, .record type fields => do .ok (bracketed '\x7b' '\x7d' (← writeFields type levels fields))

/-- The written forms of the items of a container that counts as one of the levels. -/
def writeItems : (levels : Nat) → List Value → Except Unwritable (List Text)
  | _, [] => .ok []
  | 0, _ :: _ => .error .tooDeep
  | levels + 1, v :: vs => do
    let t ← writeValue levels v
    let ts ← writeItems (levels + 1) vs
    .ok (t :: ts)

/-- The written forms of the entries of a container that counts as one of the levels. A key is written
before its value is looked at. -/
def writeEntries (writeKey : Value → Except Unwritable Text) :
    (levels : Nat) → List (Value × Value) → Except Unwritable (List Text)
  | _, [] => .ok []
  | 0, (k, _) :: _ => do
    let _ ← writeKey k
    .error .tooDeep
  | levels + 1, (k, v) :: es => do
    let key ← writeKey k
    let t ← writeValue levels v
    let ts ← writeEntries writeKey (levels + 1) es
    .ok ((key ++ .char ':' :: t) :: ts)

/-- The written forms of the fields of an object that counts as one of the levels, each behind its
name. -/
def writeFields (type : ObjectType) :
    (levels : Nat) → List (Text × Value) → Except Unwritable (List Text)
  | _, [] => .ok []
  | 0, _ :: _ => .error .tooDeep
  | levels + 1, (name, v) :: fields => do
    let t ← match formOf type name with
      | .plain => writeValue levels v
      | .body => writeValue (levels - 1) v
      | .number =>
        match v with
        | .bool b => .ok (Text.ofInt (if b then 1 else 0))
        | v => writeValue levels v
      | .properties =>
        match v with
        | .dict entries => do
          .ok (bracketed '\x7b' '\x7d' (← writeEntries writePropertyKey levels entries))
        | v => writeValue levels v
      | .destination => do
        checkKind v
        writeValue levels v
    let ts ← writeFields type (levels + 1) fields
    .ok ((quote name ++ .char ':' :: t) :: ts)

end

/-- How many levels of filled containers an object may hold to be written, itself included. -/
def writableDepth : Nat := 255

end MessageBus.Json
