import MessageBus.World

/-!
# Handles of destinations

A destination is looked up by name the first time it is used, and the handle found is bound to it for
good. Looking up a name creates the queue or topic when there is none.
-/

namespace MessageBus.Action

variable {σ : Type}

/-- Refuses to bind a destination that has another handle. -/
def refuseHandle (kind : Text) (name bound handle : Value) : Action σ Unit := do
  throw (.bus ⟨.internal, kind ++ (← shown name) ++ " already bound to " ++ (← shown bound),
    .plain (.text ("refusing " ++ (← shown handle)))⟩)

/-- Binds a queue to a URL. A bound queue only takes the URL it has. -/
def bindQueue (ref : Ref) (q : Queue) (url : Value) : Action σ Unit := do
  if !q.url.isNull && !q.url.same url then refuseHandle "Queue " q.name q.url url
  else replace ref (.queue { q with url := url })

/-- Binds a topic to an ARN. A bound topic only takes the ARN it has. -/
def bindTopic (ref : Ref) (t : Topic) (arn : Value) : Action σ Unit := do
  if !t.arn.isNull && !t.arn.same arn then refuseHandle "Topic " t.name t.arn arn
  else replace ref (.topic { t with arn := arn })

def bindHandle (x : Value) (handle : Value) : Action σ Unit := do
  match x, ← find? x with
  | .shared ref, some (.queue q) => bindQueue ref q handle
  | .shared ref, some (.topic t) => bindTopic ref t handle
  | _, _ => throw .attribute

def handle (x : Value) : Action σ Value := do
  match ← find? x with
  | some (.queue q) => expanded q.url
  | some (.topic t) => expanded t.arn
  | _ => throw .attribute

def queueLabel (q : Queue) : Action σ (Except Fault Text) := do return (q.map (← get).store.expanded).label

def topicLabel (t : Topic) : Action σ (Except Fault Text) := do return (t.map (← get).store.expanded).label

/-- The log line that tells what a destination was resolved to. -/
def resolvedLine (label handle : Except Fault Text) : Except Fault Text := do
  .ok ("Resolved " ++ (← label) ++ " to " ++ (← handle))

variable [Service σ]

/-- The URL of a queue object, looked up when it is not bound. -/
def urlOf (ref : Ref) (q : Queue) : Action σ Value := do
  if q.url.isNull then
    let label ← queueLabel q
    let answer ← request (label.map fun t => "Unable to get message queue '" ++ t ++ "'")
      (.createQueue (← expanded q.name))
    let url ← lift (answer.item "QueueUrl")
    bindQueue ref q url
    logTold .debug .resolver (resolvedLine label url.inWords)
    pure url
  else expanded q.url

def arnOf (ref : Ref) (t : Topic) : Action σ Value := do
  if t.arn.isNull then
    let label ← topicLabel t
    let answer ← request (label.map fun t => "Unable to create/lookup topic: " ++ t)
      (.createTopic (← expanded t.name))
    let arn ← lift (answer.item "TopicArn")
    bindTopic ref t arn
    logTold .debug .resolver (resolvedLine label arn.inWords)
    pure arn
  else expanded t.arn

/-- The URL of what has to be a queue. -/
def resolveQueue (x : Value) : Action σ Value := do
  if x.isNull then refuse .invalidArgument "Destination is null"
  else
    match x, ← find? x with
    | .shared ref, some (.queue q) => urlOf ref q
    | _, _ => refuse .internal ("Not a queue: " ++ (← shown x))

def resolveTopic (x : Value) : Action σ Value := do
  if x.isNull then refuse .invalidArgument "Destination is null"
  else
    match x, ← find? x with
    | .shared ref, some (.topic t) => arnOf ref t
    | _, _ => throw .attribute

def resolve (x : Value) : Action σ Value := do
  if x.isNull then refuse .invalidArgument "Destination is null"
  else
    match x, ← find? x with
    | .shared ref, some (.queue q) => urlOf ref q
    | .shared ref, some (.topic t) => arnOf ref t
    | _, _ => refuse .internal ("Invalid destination: " ++ (← typeName x))

def distinct : List Value → List Value
  | [] => []
  | v :: vs => v :: (distinct vs).filter fun u => !v.same u

def listedUrls (answer : Value) : Except Fault (List Value) := do
  let urls ← (← answer.get "QueueUrls" (.list [])).items
  if urls.all Value.isKey then .ok (distinct urls) else .error .type

def queueOfUrl (url : Value) : Except Fault Queue :=
  match Queue.check (Value.ofFields [("queue_url", url)]) with
  | .ok q => .ok q
  | .error issues => .error (.invalid "QueueDestination" issues)

/-- The queues of listed URLs, the first one that describes none being a fault. -/
def queuesOfUrls : List Value → Except Fault (List Queue)
  | [] => .ok []
  | url :: urls => do
    let q ← queueOfUrl url
    let qs ← queuesOfUrls urls
    .ok (q :: qs)

/-- The queues whose names start in a certain way, all of them for `null` or an empty text. -/
def listQueues (start : Value) : Action σ (List Queue) := do
  let label ← words start
  let answer ← request (label.map fun t => "Unable to list queues with prefix '" ++ t ++ "'")
    (.listQueues (if start.truthy then some start else none))
  lift (do queuesOfUrls (← listedUrls answer))

def deleteQueue (x : Value) : Action σ Unit := do
  let url ← resolveQueue x
  let label ← words x
  let _ ← request (label.map fun t => "Unable to delete message queue '" ++ t ++ "'") (.deleteQueue url)
  logTold .info .resolver (url.inWords.map fun t => "Deleted queue " ++ t)

def createQueue (name : Value) : Action σ Ref := do
  match Queue.check (Value.ofFields [("name", name)]) with
  | .error issues => throw (.invalid "QueueDestination" issues)
  | .ok q =>
    let ref ← add (.queue q)
    let _ ← urlOf ref q
    pure ref

def test : Action σ Unit := do
  let _ ← request (.ok "Connection test failed") (.listQueues none)

end MessageBus.Action
