import MessageBus.Resolver

/-!
# The connector

A connector holds how long it sleeps between two polls of a queue and how long the service may hold a
poll back. All else that an operation needs it finds in the world.
-/

namespace MessageBus

/-- The interval between two polls in milliseconds, and the wait time of a poll in seconds, `null` for
none. -/
structure Connector where
  interval : Value
  wait : Value

namespace Connector

variable {σ : Type}

def defaultInterval : Value := .int 1000

def intervalWarning : Text :=
  "Reducing the receive check interval will increase your AWS costs. Amazon charges each time a check is made: http://aws.amazon.com/sqs/pricing/"

/-- Builds a connector, and clients for both services unless they are there already. -/
def build (interval wait : Value) (options : ClientOptions) (clients : Bool) : Action σ Connector := do
  let interval ←
    if interval.isNull then pure defaultInterval
    else do
      Action.log .warning .connector intervalWarning
      pure interval
  if !clients then
    Action.record (.client .sqs options)
    Action.record (.client .sns options)
  return ⟨interval, wait⟩

end Connector

end MessageBus
