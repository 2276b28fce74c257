import MessageBus.Value.Access
import MessageBus.Value.Telling

/-!
# Failures of the services

A call of a remote service can be refused, with a response that carries codes, or never get an answer.
A failure is told as a security error when one of its codes says that the credentials are unknown or
have expired, and as an operation error otherwise.

A response comes from outside, so its parts can have any shape. Where a part has no such field as is
asked for, the question itself ends in a fault.
-/

namespace MessageBus

/-- Why a call of a service has no answer: it was refused, or it failed before there was a response. A failure without a
response has words of its own, whatever they are. -/
inductive Failure where
  | refused (response : Value) (operation : Text)
  | unanswered (words : Text)
  /-- A failure that cannot be made, since its words tell of a value that it does not have. -/
  | unmade (missing : Text)

namespace Failure

/-- The codes that say that the credentials are unknown or have expired. -/
def securityCodes : List Text := ["InvalidClientTokenId", "ExpiredToken"]

def retries (response : Value) : Except Fault Text := do
  if ← response.contains "ResponseMetadata" then
    let metadata ← response.item "ResponseMetadata"
    let reached ← metadata.get "MaxAttemptsReached" (.bool false)
    match metadata.field? "RetryAttempts" with
    | some attempts =>
      if reached.truthy then .ok (" (reached max retries: " ++ (← attempts.inWords) ++ ")") else .ok []
    | none => .ok []
  else .ok []

def refusalText (response : Value) (operation : Text) : Except Fault Text := do
  let retries ← retries response
  let error ← response.get "Error" (.dict [])
  let code ← error.get "Code" (.text "Unknown")
  let message ← error.get "Message" (.text "Unknown")
  .ok ("An error occurred (" ++ (← code.inWords) ++ ") when calling the " ++ operation ++ " operation" ++
    retries ++ ": " ++ (← message.inWords))

/-- The words of a failure. Without them there is no failure, but the fault of what cannot be put into words. -/
def text : Failure → Except Fault Text
  | .refused response operation => refusalText response operation
  | .unanswered words => .ok words
  | .unmade missing => .error (.missingKey (.text missing))

def codeOf (error : Value) : Except Fault (List Value) := do
  let code ← error.get "Code" .null
  .ok (if code.truthy then [code] else [])

def codesOf : List Value → Except Fault (List Value)
  | [] => .ok []
  | e :: es => do
    let first ← codeOf e
    let rest ← codesOf es
    .ok (first ++ rest)

/-- The codes of a failure: of the error itself, then of the errors listed with it. -/
def codes : Failure → Except Fault (List Value)
  | .refused response _ => do
    let error ← response.get "Error" (.dict [])
    let first ← codeOf error
    let listed ← response.get "Errors" (.list [])
    let rest ← if listed.truthy then do codesOf (← listed.items) else .ok []
    .ok (first ++ rest)
  | _ => .ok []

/-- Whether one of some codes is a security code. A list or a dictionary can be no code at all. -/
def anySecurity : List Value → Except Fault Bool
  | [] => .ok false
  | .text code :: rest => if code ∈ securityCodes then .ok true else anySecurity rest
  | .set _ :: rest => anySecurity rest
  | code :: rest => if code.isKey then anySecurity rest else .error .type

def isSecurity (f : Failure) : Except Fault Bool := do anySecurity (← f.codes)

def classify (context : Text) (f : Failure) : Except Fault BusError := do
  let words ← f.text
  let security ← f.isSecurity
  .ok ⟨if security then .security else .operation, context, .plain (.text words)⟩

/-- The error that tells a failure in a context. The context is put into words once the failure is there. -/
def toldIn (context : Except Fault Text) (f : Failure) : Except Fault BusError := do
  let _ ← f.text
  f.classify (← context)

end Failure

end MessageBus
