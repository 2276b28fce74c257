import MessageBus.Check
import MessageBus.Text.Encoding

/-!
# Errors of the bus

An error of the bus has a kind, the context it arose in, and a detail: the words of the decoder or of
the service, or a finding that has no words of its own.
-/

namespace MessageBus

/-- The kinds of errors. -/
inductive ErrorKind where
  | general
  | invalidArgument
  | invalidState
  | serialization
  | security
  | operation
  | internal
deriving DecidableEq

namespace ErrorKind

def all : List ErrorKind :=
  [.general, .invalidArgument, .invalidState, .serialization, .security, .operation, .internal]

def name : ErrorKind → Text
  | .general => "BusError"
  | .invalidArgument => "InvalidArgumentError"
  | .invalidState => "InvalidStateError"
  | .serialization => "SerializationError"
  | .security => "SecurityError"
  | .operation => "OperationError"
  | .internal => "InternalError"

/-- Whether an error of the first kind counts as one of the second: every error is a general one, and
a wrong state is a wrong argument. -/
def isA (kind other : ErrorKind) : Bool :=
  kind = other || other = .general || (kind = .invalidState && other = .invalidArgument)

end ErrorKind

/-- What an error says beside its context. -/
inductive Detail where
  | plain (words : Value)
  | invalid (issues : List Issue)
  /-- A value without a written form, and the reason. -/
  | unserializable (reason : Text)
  | tooDeep

namespace Detail

def none : Detail := .plain .null

def isTold : Detail → Bool
  | .plain words => words.truthy
  | _ => true

def words : Detail → Value
  | .plain words => words
  | _ => .text "<detail>"

end Detail

/-- An error of the bus. The words of its detail are a text, if it has any. -/
structure BusError where
  kind : ErrorKind
  context : Text
  detail : Detail

namespace BusError

def message (e : BusError) : Text :=
  if e.detail.isTold then e.context ++ ": " ++ e.detail.words.shown else e.context

/-- The message with the reason spelled out why a value has no written form. -/
def report (e : BusError) : Text :=
  match e.detail with
  | .unserializable reason => e.context ++ ": " ++ reason
  | _ => e.message

end BusError

/-- How an operation ends when it has no result. -/
inductive Fault where
  | bus (e : BusError)
  | invalid (title : Text) (issues : List Issue)
  /-- An answer or a record without an expected field. -/
  | missingKey (key : Value)
  | outOfRange (message : Text)
  /-- A number that is too large for what is done with it. -/
  | overflow (message : Text)
  | attribute
  /-- A value of a type on which an operation is not defined. -/
  | type
  | tooDeep
  /-- A value with too many others within each other to be put into words. -/
  | tooNested
  | unencodable (u : Unencodable)
  | impatient

end MessageBus
