import MessageBus.Command

/-!
# The queue command

Creates, lists or destroys queues, or tests the connection.
-/

namespace MessageBus.Command

variable {σ : Type} [Service σ]

def queueSpecs : List OptionSpec :=
  [⟨"--action", .text true⟩, ⟨"--queue-name", .text false⟩, ⟨"--prefix", .text false⟩]

def printUrls : List Queue → Command σ Unit
  | [] => pure ()
  | q :: qs => do
    print (← words q.url.inWords)
    printUrls qs

def create (name : Text) : Command σ Unit := do
  let ref ← act (Action.createQueue (.text name))
  let url ← act (Action.handle (.shared ref))
  print ("Queue " ++ name ++ " created: " ++ (← words url.inWords))

def list (start : Value) : Command σ Unit := do
  let queues ← act (Action.listQueues start)
  printUrls queues
  print (Text.ofNat queues.length ++ " queue(s)")

def destroy (name : Text) : Command σ Unit := do
  let ref ← act (Action.add (.queue (Queue.named name)))
  act (Action.deleteQueue (.shared ref))
  print ("Queue " ++ name ++ " destroyed")

def queueBody (s : Surroundings) (a : Arguments) : Command σ Unit := do
  let action := (a.text? "--action").getD []
  let name := (a.text? "--queue-name").getD []
  print ("Queue " ++ action)
  if (action = "create" ∨ action = "destroy") ∧ name.isEmpty then
    fail ("--queue-name is required for " ++ action)
  let _ ← connector (← settings s a)
  if action = "create" then create name
  else if action = "list" then list (orNull (a.text? "--prefix"))
  else if action = "destroy" then destroy name
  else if action = "test" then
    act Action.test
    print "Connection OK"
  else fail ("Invalid action: " ++ action ++ ". Valid actions are: create, list, destroy, test")

def queue (s : Surroundings) (args : List Text) (w : World σ) : Ending × World σ :=
  run "queue" queueSpecs (queueBody s) args w

end MessageBus.Command
