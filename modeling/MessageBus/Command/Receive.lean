import MessageBus.Command
import MessageBus.Connector.Receive

/-!
# The receive command

Waits for one message on a queue and shows it, and perhaps deletes it or makes it visible again.
-/

namespace MessageBus.Command

variable {σ : Type} [Service σ]

def receiveSpecs : List OptionSpec :=
  [⟨"--queue-name", .text true⟩, ⟨"--timeout-ms", .integer⟩, ⟨"--delete", .flag⟩, ⟨"--reset", .flag⟩]

/-- How many milliseconds the command waits unless it is told. -/
def defaultTimeout : Int := 20000

/-- Shows a received message: its ID, and its body or why it could not be read. -/
def display (m : Message Value) : Command σ Unit := do
  let id ← words m.messageId.inWords
  match m.diagnosis with
  | some d =>
    let error ← words d.error.inWords
    act (Action.record (errorLine ("Invalid message " ++ id ++ ": " ++ error)))
  | none =>
    print ("Message " ++ id)
    act (Action.record (.shown m.body))

def acknowledge (ref : Ref) (m : Message Value) (delete reset : Bool) : Command σ Unit := do
  if delete then
    act (Action.delete (.shared ref))
    print ("Message " ++ (← words m.messageId.inWords) ++ " deleted")
  else if reset then
    act (Action.reset (.shared ref))
    print ("Message " ++ (← words m.messageId.inWords) ++ " reset")

def receiveBody (s : Surroundings) (a : Arguments) : Command σ Unit := do
  let name := (a.text? "--queue-name").getD []
  if a.flag "--delete" ∧ a.flag "--reset" then fail "--delete and --reset are mutually exclusive"
  let connector ← connector (← settings s a)
  let queue ← act (Action.add (.queue (Queue.named name)))
  modify fun w => { w with running := true }
  match ← act (Action.receive connector (.shared queue)
      ((a.integer? "--timeout-ms").getD defaultTimeout)) with
  | none => print ("No message on " ++ name)
  | some ref =>
    let (_, m) ← act (Action.message (.shared ref))
    display m
    acknowledge ref m (a.flag "--delete") (a.flag "--reset")

def receive (s : Surroundings) (args : List Text) (w : World σ) : Ending × World σ :=
  run "receive" receiveSpecs (receiveBody s) args w

end MessageBus.Command
