import MessageBus.Request
import MessageBus.Store

/-!
# The world that the bus acts in

A world has a clock with timers, the running flag of the connection, a service that replies, the store
of shared objects, a count of the identifiers handed out, and the trace of all that happened. Time is
exact and in milliseconds. A world has patience for so many sleeps, and its clock may know no sleep beyond a certain
length.

An action either has a result or ends in a fault, and leaves a changed world in both cases.
-/

namespace MessageBus

/-- How grave a log line is. -/
inductive Level where
  | debug
  | info
  | warning
  | error
deriving DecidableEq

def Level.text : Level → Text
  | .debug => "DEBUG"
  | .info => "INFO"
  | .warning => "WARNING"
  | .error => "ERROR"

/-- Who writes log lines. -/
inductive Logger where
  | codec
  | errors
  | resolver
  | connector
deriving DecidableEq

def Logger.text : Logger → Text
  | .codec => "sqs_bus.codec"
  | .errors => "sqs_bus.errors"
  | .resolver => "sqs_bus.resolver"
  | .connector => "sqs_bus.connector_sqs"

/-- What happens in a world. -/
inductive Event where
  | call (r : Request)
  | answer (r : Request) (outcome : Except Failure Value)
  | sleep (ms : Rat)
  | client (service : ServiceName) (options : ClientOptions)
  | log (level : Level) (logger : Logger) (text : Text)
  | out (line : Text)
  | err (line : Text)
  | shown (v : Value)

/-- An event, the time since the beginning at which it happens, and the running flag of the connection
at that moment. -/
structure Entry where
  time : Rat
  running : Bool
  event : Event

/-- The start or stop of the connection at a time. -/
structure Timer where
  due : Rat
  running : Bool

/-- A world with a service of type `σ`. -/
structure World (σ : Type) where
  /-- The wall clock at the beginning. -/
  started : Rat
  /-- The time since the beginning. -/
  elapsed : Rat
  /-- The timers to come, in order. -/
  timers : List Timer
  /-- The running flag of the connection. -/
  running : Bool
  service : σ
  store : Store
  /-- How many identifiers were handed out. -/
  serial : Nat
  /-- How many sleeps there is patience for. -/
  patience : Nat
  /-- What happened, in order. -/
  trace : List Entry
  /-- The length from which on a sleep is too long for the clock, if there is one. -/
  tooLong : Option Rat := none

namespace World

variable {σ : Type}

def flagAfter (timers : List Timer) (now : Rat) (running : Bool) : Bool :=
  (timers.takeWhile (·.due ≤ now)).foldl (fun _ t => t.running) running

/-- The world so many milliseconds later, with the timers due by then gone off. -/
def advance (w : World σ) (ms : Rat) : World σ :=
  let now := w.elapsed + ms
  { w with elapsed := now, running := flagAfter w.timers now w.running,
           timers := w.timers.dropWhile (·.due ≤ now) }

def wallClock (w : World σ) : Int :=
  let now := w.started + w.elapsed
  Int.tdiv now.num now.den

/-- The world with one more event in its trace. -/
def record (w : World σ) (e : Event) : World σ :=
  { w with trace := w.trace ++ [⟨w.elapsed, w.running, e⟩] }

def events (w : World σ) : List Event := w.trace.map (·.event)

end World

namespace Value

/-- The milliseconds that an interval stands for. -/
def milliseconds : Value → Except Fault Rat
  | .float .nan => .error (.outOfRange "Invalid value NaN (not a number)")
  | .float (.infinite _) => .error (.overflow "timestamp out of range for platform time_t")
  | v =>
    match v.toRat? with
    | some ms => .ok ms
    | none => .error .type

/-- Whether so many milliseconds come to a number of seconds: a quotient that is nearer to `2 ^ 1024` than to the
largest binary64 number is none. -/
def haveSeconds (ms : Rat) : Bool :=
  ms.num.natAbs < 1000 * (Nat.pow (Nat.pow 2 256) 4 - Nat.pow (Nat.pow 2 194) 5) * ms.den

/-- Whether so many milliseconds lie beyond the ends of a clock that has no sleep as long as `tooLong`. -/
def beyondClock (tooLong : Option Rat) (ms : Rat) : Bool := tooLong.any (· ≤ if ms < 0 then -ms else ms)

/-- The milliseconds of a sleep for an interval. -/
def pause (tooLong : Option Rat) (interval : Value) : Except Fault Rat := do
  let ms ← interval.milliseconds
  if !haveSeconds ms then .error (.overflow "integer division result too large for a float")
  else if beyondClock tooLong ms then
    .error (.overflow "timestamp out of range for platform time_t")
  else if ms < 0 then .error (.outOfRange "sleep length must be non-negative")
  else .ok ms

end Value

/-- What acts on a world: it has a result or ends in a fault, and changes the world in both cases. -/
abbrev Action (σ : Type) (α : Type) := EStateM Fault (World σ) α

namespace Action

variable {σ : Type} {α : Type}

def lift (x : Except Fault α) : Action σ α :=
  match x with
  | .ok a => pure a
  | .error f => throw f

def refuse (kind : ErrorKind) (context : Text) : Action σ α := throw (.bus ⟨kind, context, .none⟩)

def record (e : Event) : Action σ Unit := modify (·.record e)

def log (level : Level) (logger : Logger) (text : Text) : Action σ Unit := record (.log level logger text)

/-- Writes a log line. A line that cannot be put into words is left out. -/
def logTold (level : Level) (logger : Logger) (line : Except Fault Text) : Action σ Unit :=
  match line with
  | .ok text => log level logger text
  | .error _ => pure ()

/-- The shared object that a value refers to. -/
def find? (x : Value) : Action σ (Option Object) := do return (← get).store.find? x

/-- A value with its objects told by their fields. -/
def expanded (x : Value) : Action σ Value := do return (← get).store.expanded x

/-- The text of a value with its objects told by their fields, if it can be put into words. -/
def words (x : Value) : Action σ (Except Fault Text) := do return (← expanded x).inWords

def shown (x : Value) : Action σ Text := do lift (← words x)

def typeName (x : Value) : Action σ Text := do return (← get).store.typeName x

def replace (ref : Ref) (o : Object) : Action σ Unit :=
  modify fun w => { w with store := w.store.replace ref o }

/-- The message that a value refers to, and its number; nothing else has the fields of a message. -/
def message (x : Value) : Action σ (Ref × Message Value) := do
  match x, ← find? x with
  | .shared ref, some (.message m) => pure (ref, m)
  | _, _ => throw .attribute

def changeMessage (ref : Ref) (f : Message Value → Except Fault (Message Value)) : Action σ Unit := do
  let (ref, m) ← message (.shared ref)
  let m ← lift (f m)
  replace ref (.message m)

def add (o : Object) : Action σ Ref := do
  let (ref, store) := (← get).store.add o
  modify fun w => { w with store := store }
  pure ref

def addMessage (m : Message (Option Destination)) : Action σ Ref := do
  let (ref, store) := (← get).store.addMessage m
  modify fun w => { w with store := store }
  pure ref

/-- The reply of the service to a request. -/
def perform [Service σ] (r : Request) : Action σ (Except Failure Value) := do
  record (.call r)
  let w ← get
  let (reply, service) := Service.answer r w.service
  let w := { w with service := service }.advance reply.takes
  set { w with running := reply.flip.getD w.running }
  record (.answer r reply.outcome)
  pure reply.outcome

/-- The answer to a request; a failure ends in the error that tells it in a context. -/
def request [Service σ] (context : Except Fault Text) (r : Request) : Action σ Value := do
  match ← perform r with
  | .ok answer => pure answer
  | .error failure =>
    let e ← lift (failure.toldIn context)
    log .error .errors e.message
    throw (.bus e)

/-- Sleeps for an interval in milliseconds, while there is patience for it. -/
def sleep (interval : Value) : Action σ Unit := do
  let ms ← lift (interval.pause (← get).tooLong)
  record (.sleep ms)
  let w ← get
  if w.patience = 0 then throw .impatient
  else set { w.advance ms with patience := w.patience - 1 }

def identifier : Action σ Text := do
  let w ← get
  set { w with serial := w.serial + 1 }
  let digits := Text.ofNat (w.serial + 1)
  let zeros : Text := List.replicate (12 - digits.length) (.char '0')
  return "00000000-0000-4000-8000-" ++ zeros ++ digits

end Action

end MessageBus
