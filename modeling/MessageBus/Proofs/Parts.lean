import MessageBus.Command.Queue
import MessageBus.Command.Receive
import MessageBus.Command.Send
import MessageBus.Proofs.Handing

/-!
# The parts of a command

A property that sequencing keeps, and that the basic parts have, is one of all that operations and commands do beside
building clients (`Pervasive`). Clients are built in one place: a command does something first, then loads its settings
and builds a connector from them, and goes on with it (`equipped`).
-/

namespace MessageBus

/-- A property that pervades what is put together from basic parts. A part can look at a world, but not at what
happened in it. -/
structure Pervasive {σ : Type} [Service σ] (P : ∀ ε α : Type, EStateM ε (World σ) α → Prop) : Prop where
  returns {ε α : Type} (a : α) : P ε α (pure a)
  throws {ε α : Type} (e : ε) : P ε α (throw e)
  andThen {ε α β : Type} {x : EStateM ε (World σ) α} {f : α → EStateM ε (World σ) β} (hx : P ε α x)
    (hf : ∀ a, P ε β (f a)) : P ε β (x >>= f)
  looks {ε β : Type} {f : World σ → EStateM ε (World σ) β} (hblind : ∀ w es, f { w with trace := es } = f w)
    (hf : ∀ w, P ε β (f w)) : P ε β (get >>= f)
  /-- A part that changes a world and adds nothing to what happened. -/
  changes {ε α : Type} {x : EStateM ε (World σ) α} (f : World σ → α × World σ)
    (hx : ∀ w, x.run w = .ok (f w).1 (f w).2)
    (hf : ∀ (w : World σ) (es : List Entry), f { w with trace := es } = ((f w).1, { (f w).2 with trace := es }) ∧
      (f w).2.trace = w.trace) : P ε α x
  records (e : Event) (h : ∀ service options, e ≠ .client service options) : P Fault Unit (Action.record e)
  performs (q : Request) : P Fault (Except Failure Value) (Action.perform q)
  acts {α : Type} {x : Action σ α} (hx : P Fault α x) : P Abort α (Command.act x)

namespace Pervasive

variable {σ : Type} [Service σ] {P : ∀ ε α : Type, EStateM ε (World σ) α → Prop} {α ε : Type}

/-! ## Basic actions -/

theorem ite (_ : Pervasive P) {p : Prop} [Decidable p] {x y : EStateM ε (World σ) α} (hx : P ε α x) (hy : P ε α y) :
    P ε α (if p then x else y) := by
  split
  · exact hx
  · exact hy

variable (h : Pervasive P)

include h

/-- A part that reads or changes the shared objects and nothing else. -/
theorem store {x : EStateM ε (World σ) α} (f : Store → α × Store)
    (hx : ∀ w, x.run w = .ok (f w.store).1 { w with store := (f w.store).2 }) : P ε α x :=
  h.changes (fun w => ((f w.store).1, { w with store := (f w.store).2 })) hx fun _ _ => ⟨rfl, rfl⟩

theorem lift (x : Except Fault α) : P Fault α (Action.lift x) := by
  cases x with
  | ok a => exact h.returns a
  | error f => exact h.throws f

theorem refuse (kind : ErrorKind) (context : Text) : P Fault α (Action.refuse kind context) := h.throws _

theorem log (level : Level) (logger : Logger) (t : Text) : P Fault Unit (Action.log level logger t) :=
  h.records _ nofun

theorem logTold (level : Level) (logger : Logger) (line : Except Fault Text) :
    P Fault Unit (Action.logTold level logger line) := by
  cases line with
  | ok t => exact h.log level logger t
  | error f => exact h.returns ()

theorem find? (x : Value) : P Fault (Option Object) (Action.find? x) := h.store (fun s => (s.find? x, s)) fun _ => rfl

theorem expanded (x : Value) : P Fault Value (Action.expanded x) := h.store (fun s => (s.expanded x, s)) fun _ => rfl

theorem words (x : Value) : P Fault (Except Fault Text) (Action.words x) :=
  h.store (fun s => ((s.expanded x).inWords, s)) fun _ => rfl

theorem shown (x : Value) : P Fault Text (Action.shown x) := h.andThen (h.words x) fun _ => h.lift _

theorem typeName (x : Value) : P Fault Text (Action.typeName x) := h.store (fun s => (s.typeName x, s)) fun _ => rfl

theorem queueLabel (q : Queue) : P Fault (Except Fault Text) (Action.queueLabel q) :=
  h.store (fun s => ((q.map s.expanded).label, s)) fun _ => rfl

theorem topicLabel (t : Topic) : P Fault (Except Fault Text) (Action.topicLabel t) :=
  h.store (fun s => ((t.map s.expanded).label, s)) fun _ => rfl

theorem replace (ref : Ref) (o : Object) : P Fault Unit (Action.replace ref o) :=
  h.store (fun s => ((), s.replace ref o)) fun _ => rfl

theorem add (o : Object) : P Fault Ref (Action.add o) := h.store (·.add o) fun _ => rfl

theorem addMessage (m : Message (Option Destination)) : P Fault Ref (Action.addMessage m) :=
  h.store (·.addMessage m) fun _ => rfl

theorem message (x : Value) : P Fault (Ref × Message Value) (Action.message x) := by
  refine h.andThen (h.find? x) fun o => ?_
  split
  · exact h.returns _
  · exact h.throws _

theorem changeMessage (ref : Ref) (f : Message Value → Except Fault (Message Value)) :
    P Fault Unit (Action.changeMessage ref f) :=
  h.andThen (h.message _) fun (ref, m) => h.andThen (h.lift (f m)) fun _ => h.replace ref _

theorem identifier : P Fault Text (Action.identifier : Action σ Text) :=
  h.changes (fun w => (w.nextIdentifier, { w with serial := w.serial + 1 })) (fun _ => rfl) fun _ _ => ⟨rfl, rfl⟩

theorem sleep (interval : Value) : P Fault Unit (Action.sleep interval) := by
  -- a sleep looks at what is left of the patience alone
  have hwait (ms : Rat) : P Fault Unit (do
      let w ← get
      if w.patience = 0 then throw .impatient
      else set { w.advance ms with patience := w.patience - 1 }) := by
    have hchange : (do
        let w ← get
        if w.patience = 0 then throw .impatient
        else set { w.advance ms with patience := w.patience - 1 } : Action σ Unit) = (do
        let w ← get
        if w.patience = 0 then throw .impatient
        else modify fun w => { w.advance ms with patience := w.patience - 1 }) := by
      funext w
      change (if w.patience = 0 then throw .impatient
          else set { w.advance ms with patience := w.patience - 1 } : Action σ Unit) w =
        (if w.patience = 0 then throw .impatient
          else modify fun w => { w.advance ms with patience := w.patience - 1 } : Action σ Unit) w
      split <;> rfl
    rw [hchange]
    exact h.looks (fun _ _ => rfl) fun w => h.ite (h.throws _)
      (h.changes (fun w => ((), { w.advance ms with patience := w.patience - 1 })) (fun _ => rfl) fun _ _ => ⟨rfl, rfl⟩)
  exact h.looks (fun _ _ => rfl) fun _ => h.andThen (h.lift _) fun ms =>
    h.andThen (h.records _ (by rintro _ _ ⟨⟩)) fun _ => hwait ms

theorem request (context : Except Fault Text) (q : Request) : P Fault Value (Action.request context q) := by
  refine h.andThen (h.performs q) fun outcome => ?_
  split
  · exact h.returns _
  · exact h.andThen (h.lift _) fun e => h.andThen (h.log ..) fun _ => h.throws _

/-! ## Handles -/

theorem refuseHandle (kind : Text) (name bound handle : Value) :
    P Fault Unit (Action.refuseHandle kind name bound handle) :=
  h.andThen (h.shown _) fun _ => h.andThen (h.shown _) fun _ => h.andThen (h.shown _) fun _ => h.throws _

theorem bindQueue (ref : Ref) (q : Queue) (url : Value) : P Fault Unit (Action.bindQueue ref q url) :=
  h.ite (h.refuseHandle ..) (h.replace ..)

theorem bindTopic (ref : Ref) (t : Topic) (arn : Value) : P Fault Unit (Action.bindTopic ref t arn) :=
  h.ite (h.refuseHandle ..) (h.replace ..)

theorem urlOf (ref : Ref) (q : Queue) : P Fault Value (Action.urlOf ref q) :=
  h.ite (h.andThen (h.queueLabel q) fun _ => h.andThen (h.expanded _) fun _ => h.andThen (h.request ..) fun _ =>
    h.andThen (h.lift _) fun _ => h.andThen (h.bindQueue ..) fun _ => h.andThen (h.logTold ..) fun _ => h.returns _)
    (h.expanded _)

theorem arnOf (ref : Ref) (t : Topic) : P Fault Value (Action.arnOf ref t) :=
  h.ite (h.andThen (h.topicLabel t) fun _ => h.andThen (h.expanded _) fun _ => h.andThen (h.request ..) fun _ =>
    h.andThen (h.lift _) fun _ => h.andThen (h.bindTopic ..) fun _ => h.andThen (h.logTold ..) fun _ => h.returns _)
    (h.expanded _)

theorem handle (x : Value) : P Fault Value (Action.handle x) := by
  refine h.andThen (h.find? x) fun o => ?_
  split
  · exact h.expanded _
  · exact h.expanded _
  · exact h.throws _

theorem resolveQueue (x : Value) : P Fault Value (Action.resolveQueue x) := by
  refine h.ite (h.refuse ..) (h.andThen (h.find? x) fun o => ?_)
  split
  · exact h.urlOf ..
  · exact h.andThen (h.shown _) fun _ => h.refuse ..

theorem listQueues (start : Value) : P Fault (List Queue) (Action.listQueues start) :=
  h.andThen (h.words _) fun _ => h.andThen (h.request ..) fun _ => h.lift _

theorem deleteQueue (x : Value) : P Fault Unit (Action.deleteQueue x) :=
  h.andThen (h.resolveQueue x) fun _ => h.andThen (h.words x) fun _ => h.andThen (h.request ..) fun _ =>
    h.logTold ..

theorem createQueue (name : Value) : P Fault Ref (Action.createQueue name) := by
  unfold Action.createQueue
  split
  · exact h.throws _
  · exact h.andThen (h.add _) fun _ => h.andThen (h.urlOf ..) fun _ => h.returns _

theorem test : P Fault Unit (Action.test : Action σ Unit) := h.andThen (h.request ..) fun _ => h.returns _

/-! ## Sending -/

theorem written (x : Except BusError Text) : P Fault Text (Action.written x) := by
  unfold Action.written
  split
  · exact h.returns _
  · exact h.andThen (h.log ..) fun _ => h.throws _

theorem serialize (m : Message Value) : P Fault Text (Action.serialize m) :=
  h.looks (fun _ _ => rfl) fun _ => h.written _

theorem stamp (x : Value) : P Fault Ref (Action.stamp x) := by
  refine h.andThen (h.message x) fun (ref, m) => ?_
  have hdate : P Fault Ref (do
      if !m.disableTimestamp.truthy then
        let now := (← get).wallClock
        Action.changeMessage ref fun m => .ok { m with timestamp := .int now }
      pure ref) :=
    h.ite (h.looks (fun _ _ => rfl) fun _ => h.andThen (h.changeMessage ..) fun _ => h.returns _) (h.returns _)
  exact h.ite (h.andThen (h.changeMessage ..) fun _ => hdate) hdate

theorem assignId (ref : Ref) (id : Except Fault Text) : P Fault Unit (Action.assignId ref id) := h.changeMessage ..

theorem sendToQueue (queue : Ref) (q : Queue) (ref : Ref) : P Fault Unit (Action.sendToQueue queue q ref) :=
  h.andThen (h.urlOf ..) fun _ => h.andThen (h.message _) fun _ => h.andThen (h.serialize _) fun _ =>
    h.andThen (h.request ..) fun _ => h.andThen (h.lift _) fun _ => h.andThen (h.assignId ..) fun _ => h.logTold ..

theorem publish (topic : Ref) (t : Topic) (ref : Ref) : P Fault Unit (Action.publish topic t ref) := by
  refine h.andThen (h.arnOf ..) fun arn => h.andThen (h.message _) fun found => ?_
  obtain ⟨_, m⟩ := found
  refine h.ite (h.andThen h.identifier fun _ => h.andThen (h.assignId ..) fun _ => ?_) ?_
  -- what is published is the message as it is by then
  all_goals
    exact h.andThen (h.message _) fun _ => h.andThen (h.serialize _) fun _ => h.andThen (h.request ..) fun _ =>
      h.andThen (h.words _) fun _ => h.logTold ..

theorem send (destination x : Value) : P Fault Unit (Action.send destination x) := by
  refine h.ite (h.refuse ..) (h.andThen (h.stamp x) fun ref => h.andThen (h.find? _) fun o => ?_)
  split
  · exact h.sendToQueue ..
  · exact h.publish ..
  · exact h.andThen (h.typeName _) fun _ => h.refuse ..

/-! ## Receiving -/

theorem read (payload : Value) : P Fault (Except BusError (Message (Option Destination))) (Action.read payload) := by
  unfold Action.read
  split
  · exact h.andThen (h.log ..) fun _ => h.returns _
  · exact h.returns _

theorem convert (record queue : Value) : P Fault Ref (Action.convert record queue) :=
  h.andThen (h.lift _) fun _ => h.andThen (h.read _) fun _ => h.andThen (h.lift _) fun _ => h.add _

theorem poll (c : Connector) (queue url : Value) : P Fault (Option Value) (Action.poll c queue url) :=
  h.andThen (h.words _) fun _ => h.andThen (h.request ..) fun _ => h.andThen (h.lift _) fun _ =>
    h.andThen (h.lift _) fun _ => h.returns _

theorem release (url record : Value) : P Fault Unit (Action.release url record) := by
  refine h.andThen (h.lift _) fun _ => h.andThen (h.performs _) fun outcome => ?_
  split
  · exact h.returns _
  · exact h.andThen (h.lift _) fun _ => h.log ..

theorem round (c : Connector) (queue url : Value) : P Fault (Option Value) (Action.round c queue url) := by
  refine h.looks (fun _ _ => rfl) fun w => h.ite (h.andThen (h.poll ..) fun found => ?_)
    (h.andThen (h.log ..) fun _ => h.returns _)
  split
  · exact h.returns _
  · exact h.looks (fun _ _ => rfl) fun _ => h.ite (h.returns _) (h.andThen (h.release ..) fun _ => h.returns _)

theorem awaitRecord (c : Connector) (queue url : Value) (timeout : Int) (start : Rat) (rounds : Nat) :
    P Fault (Option Value) (Action.awaitRecord c queue url timeout start rounds) := by
  induction rounds with
  | zero => exact h.throws _
  | succ rounds ih =>
    refine h.andThen (h.round ..) fun found => ?_
    split
    · exact h.returns _
    · exact h.looks (fun _ _ => rfl) fun _ => h.ite (h.returns _) (h.andThen (h.sleep _) fun _ => ih)

theorem receive (c : Connector) (queue : Value) (timeout : Int) :
    P Fault (Option Ref) (Action.receive c queue timeout) := by
  refine h.looks (fun _ _ => rfl) fun w => h.andThen (h.resolveQueue queue) fun url =>
    h.looks (fun _ _ => rfl) fun v => h.andThen (h.awaitRecord ..) fun found => ?_
  split
  · exact h.returns _
  · exact h.andThen (h.lift _) fun _ => h.andThen (h.logTold ..) fun _ => h.andThen (h.convert ..) fun _ => h.returns _

theorem receiptOf (m : Message Value) (done : Text) : P Fault Value (Action.receiptOf m done) :=
  h.andThen (h.lift _) fun _ => h.ite (h.refuse ..) (h.returns _)

theorem originOf (m : Message Value) : P Fault Value (Action.originOf m) := by
  refine h.andThen (h.find? _) fun o => ?_
  split
  · exact h.urlOf ..
  · exact h.ite (h.refuse ..) (h.andThen (h.shown _) fun _ => h.refuse ..)

theorem delete (x : Value) : P Fault Unit (Action.delete x) :=
  h.andThen (h.message x) fun _ => h.andThen (h.receiptOf ..) fun _ => h.andThen (h.originOf _) fun _ =>
    h.andThen (h.expanded _) fun _ => h.andThen (h.words _) fun _ => h.andThen (h.request ..) fun _ => h.returns _

theorem reset (x : Value) : P Fault Unit (Action.reset x) :=
  h.andThen (h.message x) fun _ => h.andThen (h.receiptOf ..) fun _ => h.andThen (h.originOf _) fun _ =>
    h.andThen (h.expanded _) fun _ => h.andThen (h.words _) fun _ => h.andThen (h.request ..) fun _ => h.returns _

/-! ## Commands -/

theorem fail (t : Text) : P Abort α (Command.fail t) := h.throws _

theorem told (t : Except Fault Text) : P Abort Text (Command.words t) := h.acts (h.lift t)

theorem print (line : Text) : P Abort Unit (Command.print line) := by
  unfold Command.print
  split
  · exact h.throws _
  · exact h.acts (h.records _ nofun)

theorem jsonOf (t : Text) : P Abort Value (Command.jsonOf t) := by
  unfold Command.jsonOf
  split
  · exact h.returns _
  · exact h.fail _
  · exact h.throws _
  · exact h.throws _

theorem printUrls (qs : List Queue) : P Abort Unit (Command.printUrls qs) := by
  induction qs with
  | nil => exact h.returns ()
  | cons q qs ih => exact h.andThen (h.told _) fun _ => h.andThen (h.print _) fun _ => ih

theorem create (name : Text) : P Abort Unit (Command.create name) :=
  h.andThen (h.acts (h.createQueue _)) fun _ => h.andThen (h.acts (h.handle _)) fun _ =>
    h.andThen (h.told _) fun _ => h.print _

theorem list (start : Value) : P Abort Unit (Command.list start) :=
  h.andThen (h.acts (h.listQueues start)) fun _ => h.andThen (h.printUrls _) fun _ => h.print _

theorem destroy (name : Text) : P Abort Unit (Command.destroy name) :=
  h.andThen (h.acts (h.add _)) fun _ => h.andThen (h.acts (h.deleteQueue _)) fun _ => h.print _

theorem display (m : Message Value) : P Abort Unit (Command.display m) := by
  refine h.andThen (h.told _) fun id => ?_
  split
  · exact h.andThen (h.told _) fun _ => h.acts (h.records _ nofun)
  · exact h.andThen (h.print _) fun _ => h.acts (h.records _ nofun)

theorem acknowledge (ref : Ref) (m : Message Value) (delete reset : Bool) :
    P Abort Unit (Command.acknowledge ref m delete reset) :=
  h.ite (h.andThen (h.acts (h.delete _)) fun _ => h.andThen (h.told _) fun _ => h.print _)
    (h.ite (h.andThen (h.acts (h.reset _)) fun _ => h.andThen (h.told _) fun _ => h.print _) (h.returns ()))

end Pervasive

namespace Command

variable {σ β : Type} [Service σ]

/-! ## Commands around the building of clients -/

/-- A command that does something, then loads its settings and builds a connector, and goes on with it. -/
def equipped (s : Surroundings) (a : Arguments) (first : Command σ β) (rest : β → Connector → Command σ Unit) :
    Command σ Unit := do
  let b ← first
  let c ← connector (← settings s a)
  rest b c

/-- What the queue command does before it loads its settings. -/
def queueFirst (a : Arguments) : Command σ Unit := do
  let action := (a.text? "--action").getD []
  print ("Queue " ++ action)
  if (action = "create" ∨ action = "destroy") ∧ ((a.text? "--queue-name").getD []).isEmpty then
    fail ("--queue-name is required for " ++ action)

def queueRest (a : Arguments) : Command σ Unit :=
  let action := (a.text? "--action").getD []
  let name := (a.text? "--queue-name").getD []
  if action = "create" then create name
  else if action = "list" then list (orNull (a.text? "--prefix"))
  else if action = "destroy" then destroy name
  else if action = "test" then do
    act Action.test
    print "Connection OK"
  else fail ("Invalid action: " ++ action ++ ". Valid actions are: create, list, destroy, test")

theorem queueBody_eq (s : Surroundings) (a : Arguments) :
    (queueBody s a : Command σ Unit) = equipped s a (queueFirst a) fun _ _ => queueRest a := by
  unfold queueBody equipped queueFirst
  simp only [bind_assoc]
  refine bind_congr fun _ => ?_
  split <;> rfl

/-- What the send command does before it loads its settings: it knows its destination and body then. -/
def sendFirst (a : Arguments) : Command σ (Destination × Value) := do
  match destinationOf ((a.text? "--queue-name").getD []) ((a.text? "--topic-name").getD []) with
  | none => fail "Give exactly one of --queue-name or --topic-name"
  | some destination =>
    let body ← jsonOf ((a.text? "--message").getD [])
    print ("destination: " ++ (← words destination.label))
    pure (destination, body)

def sendRest (a : Arguments) (destination : Destination) (body : Value) : Command σ Unit := do
  match outgoing body (a.flag "--disable-message-id") with
  | .error _ => fail ("Message is not a plain JSON value: " ++ (a.text? "--message").getD [])
  | .ok m =>
    let target ← act (Action.add destination.object)
    let ref ← act (Action.addMessage m)
    act (Action.send (.shared target) (.shared ref))
    let (_, m) ← act (Action.message (.shared ref))
    print ("Message sent with ID: " ++ (← words m.messageId.inWords))

theorem sendBody_eq (s : Surroundings) (a : Arguments) :
    (sendBody s a : Command σ Unit) = equipped s a (sendFirst a) fun b _ => sendRest a b.1 b.2 := by
  unfold sendBody equipped sendFirst
  generalize destinationOf _ _ = destination
  cases destination with
  | none => rfl
  | some destination =>
    simp only [bind_assoc, pure_bind]
    rfl

/-- What the receive command does before it loads its settings. -/
def receiveFirst (a : Arguments) : Command σ Unit := do
  if a.flag "--delete" ∧ a.flag "--reset" then fail "--delete and --reset are mutually exclusive"

def receiveRest (a : Arguments) (c : Connector) : Command σ Unit := do
  let name := (a.text? "--queue-name").getD []
  let queue ← act (Action.add (.queue (Queue.named name)))
  modify fun w => { w with running := true }
  match ← act (Action.receive c (.shared queue) ((a.integer? "--timeout-ms").getD defaultTimeout)) with
  | none => print ("No message on " ++ name)
  | some ref =>
    let (_, m) ← act (Action.message (.shared ref))
    display m
    acknowledge ref m (a.flag "--delete") (a.flag "--reset")

theorem receiveBody_eq (s : Surroundings) (a : Arguments) :
    (receiveBody s a : Command σ Unit) = equipped s a (receiveFirst a) fun _ c => receiveRest a c := by
  unfold receiveBody equipped receiveFirst
  split <;> rfl

end Command

namespace Pervasive

variable {σ : Type} [Service σ] {P : ∀ ε α : Type, EStateM ε (World σ) α → Prop} (h : Pervasive P) (a : Arguments)

include h

theorem queueFirst : P Abort Unit (Command.queueFirst a) :=
  h.andThen (h.print _) fun _ => h.ite (h.fail _) (h.returns ())

theorem queueRest : P Abort Unit (Command.queueRest a) :=
  h.ite (h.create _) (h.ite (h.list _) (h.ite (h.destroy _)
    (h.ite (h.andThen (h.acts h.test) fun _ => h.print _) (h.fail _))))

theorem sendFirst : P Abort (Destination × Value) (Command.sendFirst a) := by
  unfold Command.sendFirst
  split
  · exact h.fail _
  · exact h.andThen (h.jsonOf _) fun _ => h.andThen (h.told _) fun _ => h.andThen (h.print _) fun _ => h.returns _

theorem sendRest (destination : Destination) (body : Value) :
    P Abort Unit (Command.sendRest a destination body) := by
  unfold Command.sendRest
  split
  · exact h.fail _
  · exact h.andThen (h.acts (h.add _)) fun _ => h.andThen (h.acts (h.addMessage _)) fun _ =>
      h.andThen (h.acts (h.send ..)) fun _ => h.andThen (h.acts (h.message _)) fun _ =>
      h.andThen (h.told _) fun _ => h.print _

theorem receiveFirst : P Abort Unit (Command.receiveFirst a) := h.ite (h.fail _) (h.returns ())

theorem receiveRest (c : Connector) : P Abort Unit (Command.receiveRest a c) := by
  have hstart : P Abort Unit (modify fun w => { w with running := true }) :=
    h.changes (fun w => ((), { w with running := true })) (fun _ => rfl) fun _ _ => ⟨rfl, rfl⟩
  refine h.andThen (h.acts (h.add _)) fun _ => h.andThen hstart fun _ =>
    h.andThen (h.acts (h.receive ..)) fun found => ?_
  split
  · exact h.print _
  · exact h.andThen (h.acts (h.message _)) fun _ => h.andThen (h.display _) fun _ => h.acknowledge ..

end Pervasive

end MessageBus
