import MessageBus.Proofs.Acknowledging
import MessageBus.Proofs.Handing

/-!
# Operations

What connectors and resolvers offer, as a datum (`Operation`), so that histories of operations over shared
objects can be told. Each operation makes its calls on behalf of one destination object, its target.
-/

namespace MessageBus

/-- An operation with its arguments. -/
inductive Operation where
  | resolve (x : Value)
  | resolveQueue (x : Value)
  | resolveTopic (x : Value)
  | bindHandle (x handle : Value)
  | send (destination x : Value)
  | sendAll (destination : Value) (xs : List Value)
  | receive (c : Connector) (queue : Value) (timeout : Int)
  | delete (x : Value)
  | reset (x : Value)
  | deleteQueue (x : Value)
  | test
  | createQueue (name : Value)
  | listQueues (start : Value)

/-- The number of a shared object. -/
def Value.ref? : Value → Option Ref
  | .shared ref => some ref
  | _ => none

/-- The destination of a message object. -/
def Object.origin? : Object → Option Ref
  | .message m => m.destination.ref?
  | _ => none

/-- What the refusal of a handle tells of: the name of the destination, its handle, and the other one. -/
def Object.refusing (handle : Value) : Object → List Value
  | .queue q => [q.name, q.url, handle]
  | .topic t => [t.name, t.arn, handle]
  | .message _ => []

theorem Object.mem_refusing {o : Object} {h : Value} (hh : o.handle? = some h) (handle : Value) :
    h ∈ o.refusing handle := by
  cases o with
  | queue q =>
    cases hh
    simp [refusing]
  | topic t =>
    cases hh
    simp [refusing]
  | message m => cases hh

namespace Action

variable {σ α : Type}

/-- The fault that a run ends in. -/
def fault? : EStateM.Result Fault (World σ) α → Option Fault
  | .ok _ _ => none
  | .error f _ => some f

theorem run_discard (x : Action σ α) (w : World σ) :
    (discard x).run w = match x.run w with
      | .ok _ v => .ok () v
      | .error f v => .error f v := by
  change (discard x) w = match x w with
    | .ok _ v => .ok () v
    | .error f v => .error f v
  simp only [discard, Functor.mapConst, EStateM.map, Function.comp]
  cases x w <;> rfl

theorem left_discard (x : Action σ α) (w : World σ) : left ((discard x).run w) = left (x.run w) := by
  rw [run_discard]
  cases x.run w <;> rfl

theorem fault?_discard (x : Action σ α) (w : World σ) : fault? ((discard x).run w) = fault? (x.run w) := by
  rw [run_discard]
  cases x.run w <;> rfl

/-- The refusal of a handle is an internal error, or cannot be put into words. -/
theorem run_refuseHandle (kind : Text) (name bound handle : Value) (w : World σ) :
    (∃ e : BusError, e.kind = .internal ∧ (refuseHandle kind name bound handle).run w = .error (.bus e) w) ∨
      ∃ f, ∃ x ∈ [name, bound, handle], (w.store.expanded x).inWords = .error f ∧
        (refuseHandle kind name bound handle).run w = .error f w := by
  have hwordless {x : Value} {f : Fault} (hx : (w.store.expanded x).inWords = .error f) (k : Text → Action σ Unit) :
      (shown x >>= k).run w = .error f w := run_bind_of_error (run_lift_of_error hx w)
  have htold {x : Value} {t : Text} (hx : (w.store.expanded x).inWords = .ok t) (k : Text → Action σ Unit) :
      (shown x >>= k).run w = (k t).run w := by
    refine run_bind_of_ok ?_
    rw [run_shown, hx, run_lift_ok]
  unfold refuseHandle
  cases hname : (w.store.expanded name).inWords with
  | error f => exact .inr ⟨f, name, by simp, hname, hwordless hname _⟩
  | ok first =>
    rw [htold hname]
    cases hbound : (w.store.expanded bound).inWords with
    | error f => exact .inr ⟨f, bound, by simp, hbound, hwordless hbound _⟩
    | ok second =>
      rw [htold hbound]
      cases hhandle : (w.store.expanded handle).inWords with
      | error f => exact .inr ⟨f, handle, by simp, hhandle, hwordless hhandle _⟩
      | ok third =>
        rw [htold hhandle]
        exact .inl ⟨_, rfl, rfl⟩

/-- All that binding a value to a handle can do. -/
inductive BindEnds (x handle : Value) (w : World σ) : EStateM.Result Fault (World σ) Unit → Prop where
  | foreign (hx : ∀ d h, x = .shared d → w.handle? d ≠ some h) : BindEnds x handle w (.error .attribute w)
  /-- The destination is bound to another handle. -/
  | refused {d : Ref} {o : Object} {h : Value} {e : BusError} (hx : x = .shared d)
      (ho : w.store.object? d = some o) (hh : o.handle? = some h) (hbound : h.isNull = false)
      (hother : h.same handle = false) (he : e.kind = .internal) : BindEnds x handle w (.error (.bus e) w)
  /-- The destination is bound to another handle, and that cannot be put into words. -/
  | wordless {d : Ref} {o : Object} {h v : Value} {f : Fault} (hx : x = .shared d)
      (ho : w.store.object? d = some o) (hh : o.handle? = some h) (hbound : h.isNull = false)
      (hother : h.same handle = false) (hv : v ∈ o.refusing handle) (hf : (w.store.expanded v).inWords = .error f) :
      BindEnds x handle w (.error f w)
  | given {d : Ref} {o : Object} {h : Value} (hx : x = .shared d) (ho : w.store.object? d = some o)
      (hh : o.handle? = some h) (hsame : h.isNull = true ∨ h.same handle = true) :
      BindEnds x handle w (.ok () (w.put d (o.withHandle handle)))

theorem bindEnds (x handle : Value) (w : World σ) : BindEnds x handle w ((bindHandle x handle).run w) := by
  -- a queue and a topic refuse and take a handle alike
  have hbind {d : Ref} {o : Object} {h name : Value} (kind : Text) (hx : x = .shared d)
      (ho : w.store.object? d = some o) (hh : o.handle? = some h) (hname : [name, h, handle] ⊆ o.refusing handle) :
      BindEnds x handle w ((if !h.isNull && !h.same handle then refuseHandle kind name h handle
        else replace d (o.withHandle handle) : Action σ Unit).run w) := by
    by_cases hrefused : (!h.isNull && !h.same handle) = true
    · rw [if_pos hrefused]
      simp only [Bool.and_eq_true, Bool.not_eq_true'] at hrefused
      obtain ⟨e, he, hrun⟩ | ⟨f, v, hv, hf, hrun⟩ := run_refuseHandle kind name h handle w
      · rw [hrun]
        exact .refused hx ho hh hrefused.1 hrefused.2 he
      · rw [hrun]
        exact .wordless hx ho hh hrefused.1 hrefused.2 (hname hv) hf
    · rw [if_neg hrefused]
      refine .given hx ho hh ?_
      cases hnull : h.isNull with
      | true => exact .inl rfl
      | false =>
        cases hsame : h.same handle with
        | true => exact .inr rfl
        | false => simp [hnull, hsame] at hrefused
  unfold bindHandle
  rw [run_bind_of_ok (run_find? _ _)]
  split
  · next d q ho => exact hbind "Queue " rfl ho rfl (List.Subset.refl _)
  · next d t ho => exact hbind "Topic " rfl ho rfl (List.Subset.refl _)
  · next hqueue htopic =>
    refine .foreign ?_
    intro d h hd hh
    subst hd
    rcases World.object_of_handle hh with ⟨o, ho, hhandle⟩
    cases o with
    | queue q => exact hqueue d q rfl ho
    | topic t => exact htopic d t rfl ho
    | message m => cases hhandle

end Action

namespace Operation

section targets

variable {σ : Type}

/-- The destination object on behalf of which an operation makes its calls. -/
def target (w : World σ) : Operation → Option Ref
  | .resolve x | .resolveQueue x | .resolveTopic x | .bindHandle x _ | .send x _ | .sendAll x _ | .receive _ x _
  | .deleteQueue x => x.ref?
  | .delete x | .reset x => (w.store.find? x).bind Object.origin?
  | .test | .createQueue _ | .listQueues _ => none

end targets

variable {σ : Type} [Service σ]

/-- What an operation does; its result is dropped. -/
def action : Operation → Action σ Unit
  | .resolve x => discard (Action.resolve x)
  | .resolveQueue x => discard (Action.resolveQueue x)
  | .resolveTopic x => discard (Action.resolveTopic x)
  | .bindHandle x handle => Action.bindHandle x handle
  | .send destination x => Action.send destination x
  | .sendAll destination xs => Action.sendAll destination xs
  | .receive c queue timeout => discard (Action.receive c queue timeout)
  | .delete x => Action.delete x
  | .reset x => Action.reset x
  | .deleteQueue x => Action.deleteQueue x
  | .test => Action.test
  | .createQueue name => discard (Action.createQueue name)
  | .listQueues start => discard (Action.listQueues start)

/-- The world that an operation leaves. -/
def after (w : World σ) (op : Operation) : World σ := Action.left (op.action.run w)

/-- The calls that an operation makes. -/
def made (w : World σ) (op : Operation) : List Call := (op.after w).made.drop w.made.length

/-- The world that operations leave, one after the other. -/
def afterAll (w : World σ) (ops : List Operation) : World σ := ops.foldl after w

/-- The calls that operations make on behalf of a destination object. -/
def madeFor (ref : Ref) (w : World σ) : List Operation → List Call
  | [] => []
  | op :: ops => (if op.target w = some ref then op.made w else []) ++ madeFor ref (op.after w) ops

theorem afterAll_cons (w : World σ) (op : Operation) (ops : List Operation) :
    afterAll w (op :: ops) = afterAll (op.after w) ops := rfl

theorem afterAll_append (w : World σ) (ops ops' : List Operation) :
    afterAll w (ops ++ ops') = afterAll (afterAll w ops) ops' :=
  List.foldl_append

theorem madeFor_append (ref : Ref) (w : World σ) (ops ops' : List Operation) :
    madeFor ref w (ops ++ ops') = madeFor ref w ops ++ madeFor ref (afterAll w ops) ops' := by
  induction ops generalizing w with
  | nil => rfl
  | cons op ops ih => rw [List.cons_append, madeFor, madeFor, ih, List.append_assoc, afterAll_cons]

theorem made_eq {w : World σ} {op : Operation} {cs : List Call} (h : Makes w cs (op.after w)) : op.made w = cs := by
  rw [made, h.made, List.drop_left]

end Operation

namespace Action

variable {σ : Type} [Service σ]

/-- All that resolving a value can do. -/
inductive ResolvingEnds (x : Value) (w : World σ) : EStateM.Result Fault (World σ) Value → Prop where
  | absent (hx : x.isNull = true) :
      ResolvingEnds x w (.error (.bus ⟨.invalidArgument, "Destination is null", .none⟩) w)
  /-- There is no destination of the right kind. -/
  | stray {f : Fault} (hx : x.isNull = false) : ResolvingEnds x w (.error f w)
  | looked {d : Ref} {o : Object} {h : Value} {r : EStateM.Result Fault (World σ) Value} (hx : x = .shared d)
      (ho : w.store.object? d = some o) (hh : o.handle? = some h) (hl : LookupEnds d o w r) : ResolvingEnds x w r

theorem resolvingEnds_queue (x : Value) (w : World σ) : ResolvingEnds x w ((resolveQueue x).run w) := by
  have hends := resolveEnds x w
  generalize hr : (resolveQueue x).run w = r at hends ⊢
  cases hends with
  | absent hx => exact .absent hx
  | other hx ho ht => exact .stray hx
  | wordless hx ho ht => exact .stray hx
  | @queue d q _ hx ho hu =>
    subst hx
    rw [run_resolveQueue ho] at hr
    exact .looked rfl ho rfl (hr ▸ lookupEnds_queue d q w)

theorem resolvingEnds_topic (x : Value) (w : World σ) : ResolvingEnds x w ((resolveTopic x).run w) := by
  unfold resolveTopic
  cases hx : x.isNull with
  | true => exact .absent hx
  | false =>
    simp only [Bool.false_eq_true, if_false]
    rw [run_bind_of_ok (run_find? _ _)]
    split
    · next d t ho => exact .looked rfl ho rfl (lookupEnds_topic d t w)
    · exact .stray hx

theorem resolvingEnds (x : Value) (w : World σ) : ResolvingEnds x w ((resolve x).run w) := by
  unfold resolve
  cases hx : x.isNull with
  | true => exact .absent hx
  | false =>
    simp only [Bool.false_eq_true, if_false]
    rw [run_bind_of_ok (run_find? _ _)]
    split
    · next d q ho => exact .looked rfl ho rfl (lookupEnds_queue d q w)
    · next d t ho => exact .looked rfl ho rfl (lookupEnds_topic d t w)
    · exact .stray hx

/-- All that deleting a queue can do. -/
inductive DeletionEnds (x : Value) (w : World σ) : EStateM.Result Fault (World σ) Unit → Prop where
  | unfound {f : Fault} {v : World σ} (hl : (resolveQueue x).run w = .error f v) : DeletionEnds x w (.error f v)
  | refused {url : Value} {context : Except Fault Text} {f : Fault} {v u : World σ}
      (hl : (resolveQueue x).run w = .ok url v)
      (hr : RequestEnds context (.deleteQueue url) v (.error f u)) (hc : TellsOf [v.store.expanded x] context) :
      DeletionEnds x w (.error f u)
  | deleted {url answer : Value} {context line : Except Fault Text} {v u : World σ}
      (hl : (resolveQueue x).run w = .ok url v) (hr : RequestEnds context (.deleteQueue url) v (.ok answer u)) :
      DeletionEnds x w (.ok () (u.note .info .resolver line))

theorem deletionEnds (x : Value) (w : World σ) : DeletionEnds x w ((deleteQueue x).run w) := by
  unfold deleteQueue
  cases hl : (resolveQueue x).run w with
  | error f v =>
    rw [run_bind_of_error hl]
    exact .unfound hl
  | ok url v =>
    rw [run_bind_of_ok hl, run_bind_of_ok (run_words _ _)]
    have hrequest := requestEnds ((v.store.expanded x).inWords.map fun t =>
      "Unable to delete message queue '" ++ t ++ "'") (.deleteQueue url) v
    cases hr : (request ((v.store.expanded x).inWords.map fun t => "Unable to delete message queue '" ++ t ++ "'")
        (.deleteQueue url)).run v with
    | error f u =>
      rw [run_bind_of_error hr]
      exact .refused hl (hr ▸ hrequest) (.map _ _)
    | ok answer u =>
      rw [run_bind_of_ok hr, run_logTold]
      exact .deleted hl (hr ▸ hrequest)

/-- All that creating a queue can do. The new object is looked up like any other. -/
inductive CreationEnds (name : Value) (w : World σ) : EStateM.Result Fault (World σ) Ref → Prop where
  | invalid {issues : List Issue} (hq : Queue.check (Value.ofFields [("name", name)]) = .error issues) :
      CreationEnds name w (.error (.invalid "QueueDestination" issues) w)
  | unfound {q : Queue} {f : Fault} {v : World σ} (hq : Queue.check (Value.ofFields [("name", name)]) = .ok q)
      (hl : LookupEnds w.store.objects.length (.queue q) (w.holding (.queue q)) (.error f v)) :
      CreationEnds name w (.error f v)
  | created {q : Queue} {url : Value} {v : World σ} (hq : Queue.check (Value.ofFields [("name", name)]) = .ok q)
      (hl : LookupEnds w.store.objects.length (.queue q) (w.holding (.queue q)) (.ok url v)) :
      CreationEnds name w (.ok w.store.objects.length v)

theorem creationEnds (name : Value) (w : World σ) : CreationEnds name w ((createQueue name).run w) := by
  unfold createQueue
  cases hq : Queue.check (Value.ofFields [("name", name)]) with
  | error issues => exact .invalid hq
  | ok q =>
    dsimp only
    have hadd : (add (.queue q)).run w = .ok w.store.objects.length (w.holding (.queue q)) := rfl
    rw [run_bind_of_ok hadd]
    have hl := lookupEnds_queue w.store.objects.length q (w.holding (.queue q))
    cases hr : (urlOf w.store.objects.length q).run (w.holding (.queue q)) with
    | error f v =>
      rw [run_bind_of_error hr]
      exact .unfound hq (hr ▸ hl)
    | ok url v =>
      rw [run_bind_of_ok hr]
      exact .created hq (hr ▸ hl)

/-- All that listing queues can do. -/
inductive ListingEnds (start : Value) (w : World σ) : EStateM.Result Fault (World σ) (List Queue) → Prop where
  | refused {named : Option Value} {context : Except Fault Text} {f : Fault} {v : World σ}
      (hr : RequestEnds context (.listQueues named) w (.error f v)) (hc : TellsOf [w.store.expanded start] context) :
      ListingEnds start w (.error f v)
  | malformed {named : Option Value} {context : Except Fault Text} {answer : Value} {f : Fault} {v : World σ}
      (hr : RequestEnds context (.listQueues named) w (.ok answer v))
      (hq : (do queuesOfUrls (← listedUrls answer)) = .error f) : ListingEnds start w (.error f v)
  | listed {named : Option Value} {context : Except Fault Text} {answer : Value} {queues : List Queue} {v : World σ}
      (hr : RequestEnds context (.listQueues named) w (.ok answer v))
      (hq : (do queuesOfUrls (← listedUrls answer)) = .ok queues) : ListingEnds start w (.ok queues v)

theorem listingEnds (start : Value) (w : World σ) : ListingEnds start w ((listQueues start).run w) := by
  unfold listQueues
  rw [run_bind_of_ok (run_words _ _)]
  have hrequest := requestEnds ((w.store.expanded start).inWords.map fun t =>
    "Unable to list queues with prefix '" ++ t ++ "'") (.listQueues (if start.truthy then some start else none)) w
  cases hr : (request ((w.store.expanded start).inWords.map fun t => "Unable to list queues with prefix '" ++ t ++ "'")
      (.listQueues (if start.truthy then some start else none))).run w with
  | error f v =>
    rw [run_bind_of_error hr]
    exact .refused (hr ▸ hrequest) (.map _ _)
  | ok answer v =>
    rw [run_bind_of_ok hr]
    cases hq : (do queuesOfUrls (← listedUrls answer) : Except Fault (List Queue)) with
    | error f => exact .malformed (hr ▸ hrequest) hq
    | ok queues => exact .listed (hr ▸ hrequest) hq

/-- A test is one request; its answer is dropped. -/
theorem run_test (w : World σ) :
    test.run w = match (request (.ok "Connection test failed") (.listQueues none)).run w with
      | .ok _ v => .ok () v
      | .error f v => .error f v := by
  rw [test, EStateM.run_bind]
  cases (request (.ok "Connection test failed") (.listQueues none)).run w <;> rfl

end Action

end MessageBus
