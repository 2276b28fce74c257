import MessageBus.Request

/-!
# A scripted service

A service that follows a script: each call takes the next step of its method. Where the step says
nothing else, queues and topics are created by name, and what is sent is kept and handed out once, in the
order sent. All queues share what is kept.
-/

namespace MessageBus

namespace Failure

/-! ## Failures without a response -/

def noCredentials : Failure := .unanswered "Unable to locate credentials"

def noRegion : Failure := .unanswered "You must specify a region."

/-- A failure whose words tell of a value that has to be there. -/
def about (name : Text) (words : Text → Text) : Option Value → Failure
  | some v => .unanswered (words v.shown)
  | none => .unmade name

def unreachable : (url : Option Value) → Failure :=
  about "endpoint_url" fun t => "Could not connect to the endpoint URL: \"" ++ t ++ "\""

def closed : (url : Option Value) → Failure := about "endpoint_url" fun t =>
  "Connection was closed before we received a valid response from endpoint URL: \"" ++ t ++ "\"."

def timedOut : (url : Option Value) → Failure :=
  about "endpoint_url" fun t => "Read timeout on endpoint URL: \"" ++ t ++ "\""

def partialCredentials (provider missing : Option Value) : Failure :=
  match provider with
  | none => .unmade "provider"
  | some p => about "cred_var" (fun t => "Partial credentials found in " ++ p.shown ++ ", missing: " ++ t) missing

def unspecified : Failure := .unanswered "An unspecified error occurred"

end Failure

/-- One step of a script: how many milliseconds the call takes, whether the connection is started or
stopped in it, and what comes of it, the default answer if nothing is said. -/
structure ScriptStep where
  takes : Rat
  flip : Option Bool
  outcome : Option (Except Failure Value)

/-- The steps to come by method, and the bodies that are kept. -/
structure Script where
  /-- The steps that each method has left. -/
  steps : List (Text × List ScriptStep)
  /-- How many bodies were sent. -/
  sent : Nat
  /-- The bodies that wait, each with the number under which it was sent. -/
  waiting : List (Nat × Text)
  /-- How many bodies were handed out. -/
  delivered : Nat

namespace Script

def empty : Script := ⟨[], 0, [], 0⟩

def plainStep : ScriptStep := ⟨0, none, none⟩

def append (method : Text) (more : List ScriptStep) :
    List (Text × List ScriptStep) → List (Text × List ScriptStep)
  | [] => [(method, more)]
  | (m, steps) :: rest =>
    if m = method then (m, steps ++ more) :: rest else (m, steps) :: append method more rest

def extend (s : Script) (method : Text) (more : List ScriptStep) : Script :=
  { s with steps := append method more s.steps }

/-- The next step of a method, and the steps left. -/
def next (method : Text) : List (Text × List ScriptStep) → ScriptStep × List (Text × List ScriptStep)
  | [] => (plainStep, [])
  | (m, steps) :: rest =>
    if m = method then
      match steps with
      | [] => (plainStep, (m, []) :: rest)
      | step :: steps => (step, (m, steps) :: rest)
    else
      let (step, rest) := next method rest
      (step, (m, steps) :: rest)

def queueUrl (name : Text) : Text := "https://sqs.us-east-1.amazonaws.com/123456789012/" ++ name

def topicArn (name : Text) : Text := "arn:aws:sns:us-east-1:123456789012:" ++ name

def sentId (n : Nat) : Text := "m-" ++ Text.ofNat n

def receipt (k : Nat) : Text := "rh-" ++ Text.ofNat k

/-- The record of a body that was sent as number `n` and is handed out as number `k`. -/
def record (n k : Nat) (body : Text) : Value :=
  Value.ofFields [("MessageId", .text (sentId n)), ("ReceiptHandle", .text (receipt k)),
    ("Body", .text body)]

/-- The answer to a request for which the script says nothing. -/
def plainAnswer (r : Request) (s : Script) : Value × Script :=
  match r with
  | .createQueue name => (Value.ofFields [("QueueUrl", .text (queueUrl name.shown))], s)
  | .createTopic name => (Value.ofFields [("TopicArn", .text (topicArn name.shown))], s)
  | .sendMessage _ body =>
    (Value.ofFields [("MessageId", .text (sentId (s.sent + 1)))],
      { s with sent := s.sent + 1, waiting := s.waiting ++ [(s.sent + 1, body)] })
  | .receiveMessage _ _ =>
    match s.waiting with
    | [] => (.dict [], s)
    | (n, body) :: waiting =>
      (Value.ofFields [("Messages", .list [record n (s.delivered + 1) body])],
        { s with waiting := waiting, delivered := s.delivered + 1 })
  | _ => (.dict [], s)

/-- The reply to a request: the next step of its method, with the plain answer where the step has no
outcome of its own. -/
def reply (r : Request) (s : Script) : Reply × Script :=
  let (step, steps) := next r.method s.steps
  let s := { s with steps := steps }
  match step.outcome with
  | some outcome => (⟨step.takes, step.flip, outcome⟩, s)
  | none =>
    let (answer, s) := plainAnswer r s
    (⟨step.takes, step.flip, .ok answer⟩, s)

instance : Service Script := ⟨reply⟩

end Script

end MessageBus
