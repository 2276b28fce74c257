import MessageBus.Command.Queue
import MessageBus.Command.Receive
import MessageBus.Command.Send
import MessageBus.Script

/-!
# The command line

Runs one of the commands `queue`, `send` and `receive` against a service in memory, with the variables
of the process and of the file `.env`, and prints what the command prints.
-/

namespace MessageBus

def settingNames : List String :=
  ["APP_NAME", "AWS_ACCESS_KEY_ID", "AWS_SECRET_ACCESS_KEY", "AWS_REGION", "AWS_ENDPOINT_URL",
    "RECEIVE_CHECK_INTERVAL_MS", "RECEIVE_WAIT_SECONDS"]

/-- The string of a text, with a replacement character for half of a UTF-16 pair. -/
def Text.toString (t : Text) : String :=
  String.ofList (t.map fun
    | .char c => c
    | .surrogate _ => Char.ofNat 0xFFFD)

def printEvent : Event → IO Unit
  | .out line => IO.println line.toString
  | .err line => IO.eprintln line.toString
  | .shown v => IO.eprintln v.listed.toString
  | _ => pure ()

/-- The text of the file `.env` that is nearest to the program, in its directory or above. -/
def nearestFile : IO (Option Text) := do
  let mut place ← IO.appDir
  for _ in place.components do
    let file := place / ".env"
    if ← file.pathExists then return some (Text.ofString (← IO.FS.readFile file))
    place := place.parent.getD place
  return none

def processSurroundings : IO Surroundings := do
  let mut environment : List (Text × Text) := []
  for name in settingNames do
    for spelling in [name, name.toLower] do
      if let some value ← IO.getEnv spelling then
        environment := environment ++ [(Text.ofString spelling, Text.ofString value)]
  let file ← try pure (some (Text.ofString (← IO.FS.readFile ".env"))) catch _ => pure none
  return ⟨environment, file, ← nearestFile⟩

/-- The wall clock in milliseconds: the time at which a new file was written. -/
def wallClock : IO Rat := do
  let (_, file) ← IO.FS.createTempFile
  let written := (← file.metadata).modified
  IO.FS.removeFile file
  return written.sec * 1000 + mkRat written.nsec.toNat 1000000

/-- How long a sleep is that is too long for a clock of `2 ^ 63` nanoseconds. It lies midway between the last number of
seconds that the clock has, a multiple of `2 ^ -19`, and the next. -/
def endOfClock : Rat := mkRat ((2 * 4835703278458516 + 1) * 125) (Nat.pow 2 17)

def freshWorld : IO (World Script) := do
  return { started := ← wallClock, elapsed := 0, timers := [], running := true, service := Script.empty,
           store := Store.empty, serial := 0, patience := 100000, trace := [], tooLong := some endOfClock }

end MessageBus

open MessageBus in
/-- Runs the command that the first argument names. -/
def main (args : List String) : IO UInt32 := do
  let surroundings ← processSurroundings
  let world ← freshWorld
  let run (command : Surroundings → List Text → World Script → Ending × World Script)
      (rest : List String) : IO UInt32 := do
    let (ending, world) := command surroundings (rest.map Text.ofString) world
    world.events.forM printEvent
    return ending.code.toUInt32
  match args with
  | "queue" :: rest => run Command.queue rest
  | "send" :: rest => run Command.send rest
  | "receive" :: rest => run Command.receive rest
  | _ =>
    IO.eprintln "Usage: (queue | send | receive) [OPTIONS]"
    return 2
