import MessageBus.Number.Style
import MessageBus.Text.Quoted
import MessageBus.Value

/-!
# Listings of values

The text of a value as log lines and error messages show it: a text stands for itself, and every
text inside a container is quoted.
-/

namespace MessageBus.Value

def listedOctet (quote : Char) (b : UInt8) : Text :=
  let c := Char.ofNat b.toNat
  if c = quote ∨ c = '\\' then ['\\', .char c]
  else if c = '\t' then "\\t"
  else if c = '\n' then "\\n"
  else if c = '\r' then "\\r"
  else if 0x20 ≤ b ∧ b < 0x7F then [.char c]
  else "\\x" ++ Text.hex 2 b.toNat

def listedOctets (octets : List UInt8) : Text :=
  let quote := if 39 ∈ octets ∧ 34 ∉ octets then '"' else '\''
  .char 'b' :: .char quote :: (octets.flatMap (listedOctet quote) ++ [.char quote])

mutual

def listed : Value → Text
  | .null => "None"
  | .bool b => if b then "True" else "False"
  | .int n => Text.ofInt n
  | .float x => FloatStyle.listing.write x
  | .text t => t.quoted
  | .bytes octets => listedOctets octets
  | .list items => "[" ++ Text.joined ", " (listedItems items) ++ "]"
  | .tuple [x] => "(" ++ listed x ++ ",)"
  | .tuple items => "(" ++ Text.joined ", " (listedItems items) ++ ")"
  | .set [] => "set()"
  | .set items => "\x7b" ++ Text.joined ", " (listedItems items) ++ "\x7d"
  | .dict entries => "\x7b" ++ Text.joined ", " (listedEntries entries) ++ "\x7d"
  | .record type fields => type.name ++ "(" ++ Text.joined ", " (listedFields fields) ++ ")"
  | .shared _ => "..."
  | .object => "<object>"

def listedItems : List Value → List Text
  | [] => []
  | x :: xs => listed x :: listedItems xs

def listedEntries : List (Value × Value) → List Text
  | [] => []
  | (k, v) :: es => (listed k ++ ": " ++ listed v) :: listedEntries es

def listedFields : List (Text × Value) → List Text
  | [] => []
  | (k, v) :: fields => (k ++ "=" ++ listed v) :: listedFields fields

end

mutual

/-- The text of a value on its own: queues and topics are told by their names, messages by their
fields. -/
def shown : Value → Text
  | .text t => t
  | .record .queue fields => "Queue[" ++ shownName fields ++ "]"
  | .record .topic fields => "Topic[" ++ shownName fields ++ "]"
  | .record _ fields => Text.joined " " (listedFields fields)
  | v => listed v

def shownName : List (Text × Value) → Text
  | [] => []
  | (k, v) :: fields => if k = "name" then shown v else shownName fields

end

end MessageBus.Value
