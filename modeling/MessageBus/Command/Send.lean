import MessageBus.Command
import MessageBus.Connector.Send

/-!
# The send command

Wraps a JSON text in a message and sends it to a queue or publishes it to a topic.
-/

namespace MessageBus.Command

variable {σ : Type} [Service σ]

def sendSpecs : List OptionSpec :=
  [⟨"--queue-name", .text false⟩, ⟨"--topic-name", .text false⟩, ⟨"--message", .text true⟩,
    ⟨"--disable-message-id", .flag⟩]

/-- The value of a JSON text. Only a text that is no JSON is an error of the command. -/
def jsonOf (t : Text) : Command σ Value :=
  match Json.readUnmarked .payload t with
  | .ok v => pure v
  | .error (.malformed _ _ _ _) => fail ("Invalid JSON: " ++ t)
  | .error (.tooManyDigits limit count) =>
    throw (.uncaught (.outOfRange (Json.ReadError.tooManyDigits limit count).message))
  | .error .tooDeep => throw (.uncaught .tooDeep)

def outgoing (body : Value) (disableId : Bool) : Checked (Message (Option Destination)) :=
  Message.check .caller
    (Value.ofFields [("body", body), ("disable_message_id", .bool disableId)])

/-- The destination that names give, of which exactly one is not empty. -/
def destinationOf (queueName topicName : Text) : Option Destination :=
  match queueName.isEmpty, topicName.isEmpty with
  | false, true => some (.queue (Queue.named queueName))
  | true, false => some (.topic (Topic.named topicName))
  | _, _ => none

def sendBody (s : Surroundings) (a : Arguments) : Command σ Unit := do
  match destinationOf ((a.text? "--queue-name").getD []) ((a.text? "--topic-name").getD []) with
  | none => fail "Give exactly one of --queue-name or --topic-name"
  | some destination =>
    let t := (a.text? "--message").getD []
    let body ← jsonOf t
    print ("destination: " ++ (← words destination.label))
    let _ ← connector (← settings s a)
    match outgoing body (a.flag "--disable-message-id") with
    | .error _ => fail ("Message is not a plain JSON value: " ++ t)
    | .ok m =>
      let target ← act (Action.add destination.object)
      let ref ← act (Action.addMessage m)
      act (Action.send (.shared target) (.shared ref))
      let (_, m) ← act (Action.message (.shared ref))
      print ("Message sent with ID: " ++ (← words m.messageId.inWords))

def send (s : Surroundings) (args : List Text) (w : World σ) : Ending × World σ :=
  run "send" sendSpecs (sendBody s) args w

end MessageBus.Command
