import Mathlib.Order.BooleanAlgebra.Set
import MessageBus.Command.Queue
import MessageBus.Proofs.Commands
import MessageBus.Proofs.Failures
import MessageBus.Proofs.Operations
import MessageBus.Script

/-!
# Deleting queues that are missing

What comes of deleting a missing queue at a service that keeps a set of queues (`Registry`). A queue that is bound
to its URL is asked for under it, and the refusal surfaces. A queue that is only named is looked up first, and the
lookup creates it: the deletion then finds it, so nothing tells that it was missing.
-/

namespace MessageBus

/-- A service that keeps a set of queues, each under its URL. To create a queue is to create it or to get it, and to
delete one that is missing is refused, with a response that bears no security code. -/
structure Registry (σ : Type) [Service σ] where
  /-- The URLs of the queues that there are. -/
  existing : σ → Set Text
  urlOf : Text → Text
  created : ∀ name s, ∃ answer, (Service.answer (.createQueue (.text name)) s).1.outcome = .ok answer ∧
    answer.item "QueueUrl" = .ok (.text (urlOf name)) ∧
    existing (Service.answer (.createQueue (.text name)) s).2 = insert (urlOf name) (existing s)
  deleted : ∀ url s, url ∈ existing s → ∃ answer,
    (Service.answer (.deleteQueue (.text url)) s).1.outcome = .ok answer ∧
    existing (Service.answer (.deleteQueue (.text url)) s).2 = existing s \ {url}
  missing : ∀ url s, url ∉ existing s → ∃ response operation,
    (Service.answer (.deleteQueue (.text url)) s).1.outcome = .error (.refused response operation) ∧
    (Failure.refused response operation).Regular ∧ ¬ (Failure.refused response operation).IsCredential ∧
    existing (Service.answer (.deleteQueue (.text url)) s).2 = existing s

namespace Action

variable {σ : Type} [Service σ]

/-! ## Lookups -/

omit [Service σ] in
theorem lookupOf_named {q : Queue} {name : Text} {w : World σ} (hname : q.name = .text name) :
    lookupOf w q = .createQueue (.text name) := by
  rw [lookupOf, hname, Store.expanded_text]

theorem makes_bound (ref : Ref) (q : Queue) (url : Value) (w : World σ) :
    Makes w [⟨lookupOf w q, (w.reply (lookupOf w q)).outcome⟩] (bound w ref q url) := by
  have hput : Makes (w.after (lookupOf w q)) [] (bound w ref q url) := .put_note _ ref _ .debug .resolver _
  exact (Makes.after w (lookupOf w q)).before hput

/-- A bound queue is known by its URL. -/
theorem run_resolveQueue_bound {ref : Ref} {q : Queue} {url : Text} {w : World σ}
    (hq : w.store.object? ref = some (.queue q)) (hurl : q.url = .text url) :
    (resolveQueue (.shared ref)).run w = .ok (.text url) w := by
  have hhandle : (Object.queue q).handle? = some (.text url) := by rw [Object.handle?, hurl]
  rw [run_resolveQueue hq, (lookupEnds_queue ref q w).of_bound hhandle rfl, Store.expanded_text]

/-- A queue that is only named is looked up by its name, and bound to the URL that it is given. -/
theorem run_resolveQueue_named {ref : Ref} {q : Queue} {name url : Text} {answer : Value} {w : World σ}
    (hq : w.store.object? ref = some (.queue q)) (hurl : q.url = .null) (hname : q.name = .text name)
    (ho : (w.reply (.createQueue (.text name))).outcome = .ok answer)
    (ha : answer.item "QueueUrl" = .ok (.text url)) :
    (resolveQueue (.shared ref)).run w = .ok (.text url) (bound w ref q (.text url)) := by
  have hlookup := lookupOf_named (w := w) hname
  have hends := urlEnds ref q w
  rw [run_resolveQueue hq]
  generalize (urlOf ref q).run w = r at hends ⊢
  cases hends with
  | known hbound =>
    rw [hurl] at hbound
    cases hbound
  | found hnull ho' hu =>
    rw [hlookup, ho] at ho'
    cases ho'
    rw [ha] at hu
    cases hu
    rfl
  | malformed hnull ho' hu =>
    rw [hlookup, ho] at ho'
    cases ho'
    rw [ha] at hu
    cases hu
  | failed hnull ho' he =>
    rw [hlookup, ho] at ho'
    cases ho'
  | untold hnull ho' he =>
    rw [hlookup, ho] at ho'
    cases ho'

/-! ## Deletions -/

/-- A world in which a deletion was asked for, and nothing else was done but logging. -/
structure Asked (url : Value) (v u : World σ) : Prop where
  makes : Makes v [⟨.deleteQueue url, (v.reply (.deleteQueue url)).outcome⟩] u
  service : u.service = (Service.answer (.deleteQueue url) v.service).2
  store : u.store = v.store

theorem Asked.note (url : Value) (v : World σ) (level : Level) (logger : Logger) (line : Except Fault Text) :
    Asked url v ((v.after (.deleteQueue url)).note level logger line) where
  makes := (Makes.after v (.deleteQueue url)).before (.note _ level logger line)
  service := World.service_note ..
  store := World.store_note ..

/-- A deletion that is refused with a failure in order ends in the error that tells it. -/
theorem deleteQueue_refused {x url : Value} {failure : Failure} {w v : World σ}
    (hl : (resolveQueue x).run w = .ok url v) (ho : (v.reply (.deleteQueue url)).outcome = .error failure)
    (hregular : failure.Regular) (hx : (v.store.expanded x).Tellable) :
    ∃ e u, (deleteQueue x).run w = .error (.bus e) u ∧ failure.Told e ∧ Asked url v u := by
  obtain ⟨e, he, -, htold⟩ := Failure.classify_regular hregular
    ("Unable to delete message queue '" ++ (v.store.expanded x).shown ++ "'")
  refine ⟨e, _, ?_, htold, .note url v .error .errors (.ok e.message)⟩
  rw [deleteQueue, run_bind_of_ok hl, run_bind_of_ok (run_words _ _), hx]
  apply run_bind_of_error
  rw [Except.map, run_request_error _ ho, Failure.toldIn_ok, he]
  rfl

theorem deleteQueue_answered {x url answer : Value} {w v : World σ} (hl : (resolveQueue x).run w = .ok url v)
    (ho : (v.reply (.deleteQueue url)).outcome = .ok answer) :
    ∃ u, (deleteQueue x).run w = .ok () u ∧ Asked url v u := by
  refine ⟨_, ?_, .note url v .info .resolver (url.inWords.map fun t => "Deleted queue " ++ t)⟩
  rw [deleteQueue, run_bind_of_ok hl, run_bind_of_ok (run_words _ _), run_bind_of_ok (run_request_ok _ ho), run_logTold]

variable (r : Registry σ)

/-- What comes of deleting a missing queue that is bound to its URL. -/
theorem deleteQueue_bound {ref : Ref} {q : Queue} {url : Text} {w : World σ}
    (hq : w.store.object? ref = some (.queue q)) (hurl : q.url = .text url)
    (hx : (w.store.expanded (.shared ref)).Tellable) (hmissing : url ∉ r.existing w.service) :
    ∃ e v failure, (deleteQueue (.shared ref)).run w = .error (.bus e) v ∧ e.kind = .operation ∧
      Makes w [⟨.deleteQueue (.text url), .error failure⟩] v ∧ r.existing v.service = r.existing w.service := by
  obtain ⟨response, operation, ho, hregular, hcredential, hkept⟩ := r.missing url w.service hmissing
  obtain ⟨e, v, hrun, htold, hasked⟩ := deleteQueue_refused (run_resolveQueue_bound hq hurl) ho hregular hx
  have hmakes := hasked.makes
  rw [World.reply, ho] at hmakes
  refine ⟨e, v, _, hrun, ?_, hmakes, ?_⟩
  · rcases htold.kind with ⟨_, hsecurity⟩ | ⟨hkind, _⟩
    · exact absurd hsecurity hcredential
    · exact hkind
  · rw [hasked.service, hkept]

/-- What comes of deleting a missing queue that is only named. -/
theorem deleteQueue_named {ref : Ref} {q : Queue} {name : Text} {w : World σ}
    (hq : w.store.object? ref = some (.queue q)) (hurl : q.url = .null) (hname : q.name = .text name)
    (hmissing : r.urlOf name ∉ r.existing w.service) :
    ∃ v created deleted, (deleteQueue (.shared ref)).run w = .ok () v ∧
      Makes w [⟨.createQueue (.text name), .ok created⟩, ⟨.deleteQueue (.text (r.urlOf name)), .ok deleted⟩] v ∧
      r.urlOf name ∈ r.existing (w.after (.createQueue (.text name))).service ∧
      r.existing v.service = r.existing w.service ∧ v.handle? ref = some (.text (r.urlOf name)) := by
  obtain ⟨created, ho, hitem, hinserted⟩ := r.created name w.service
  have hl := run_resolveQueue_named hq hurl hname ho hitem
  have hservice : (bound w ref q (.text (r.urlOf name))).service =
      (Service.answer (.createQueue (.text name)) w.service).2 := by
    show (w.after (lookupOf w q)).service = _
    rw [World.service_after, lookupOf_named hname]
  -- the lookup created the queue, so the deletion finds it
  have hexists : r.urlOf name ∈ r.existing (Service.answer (.createQueue (.text name)) w.service).2 := by
    rw [hinserted]
    exact Set.mem_insert _ _
  obtain ⟨deleted, hd, hremoved⟩ := r.deleted _ _ hexists
  rw [← hservice] at hd hremoved
  obtain ⟨v, hrun, hasked⟩ := deleteQueue_answered hl hd
  refine ⟨v, created, deleted, hrun, ?_, hexists, ?_, ?_⟩
  · have hlooked := makes_bound ref q (.text (r.urlOf name)) w
    rw [lookupOf_named hname, World.reply, ho] at hlooked
    have hmakes := hlooked.trans hasked.makes
    rw [World.reply, hd] at hmakes
    exact hmakes
  · rw [hasked.service, hremoved, hservice, hinserted, Set.insert_sdiff_self_of_notMem hmissing]
  · rw [World.handle?_congr hasked.store]
    exact World.handle?_put_withHandle (w := w.after (lookupOf w q)) hq (by rw [Object.handle?, hurl]) _

end Action

namespace Command

variable {σ : Type} [Service σ] (r : Registry σ)

/-! ## Destroying queues by name -/

/-- The line that tells of a destroyed queue. -/
def destroyedLine (name : Text) : Text := "Queue " ++ name ++ " destroyed"

theorem run_destroy {name : Text} {w : World σ} (hmissing : r.urlOf name ∉ r.existing w.service) :
    ∃ v created deleted, EStateM.run (destroy name) w = EStateM.run (print (destroyedLine name)) v ∧
      Makes w [⟨.createQueue (.text name), .ok created⟩, ⟨.deleteQueue (.text (r.urlOf name)), .ok deleted⟩] v ∧
      r.existing v.service = r.existing w.service := by
  have hadd : (Action.add (.queue (Queue.named name))).run w =
      .ok w.store.objects.length (w.holding (.queue (Queue.named name))) := rfl
  have hquiet : Makes w [] (w.holding (.queue (Queue.named name))) := .of_trace rfl
  obtain ⟨v, created, deleted, hrun, hmakes, -, hset, -⟩ :=
    Action.deleteQueue_named r (w.object?_holding (.queue (Queue.named name))) rfl rfl hmissing
  refine ⟨v, created, deleted, ?_, hquiet.trans hmakes, hset⟩
  rw [destroy, run_bind_of_ok (run_act_ok hadd), run_bind_of_ok (run_act_ok hrun), destroyedLine]

theorem run_queueBody {s : Surroundings} {settings : Settings} {a : Arguments} {name : Text} (w : World σ)
    (hsettings : s.loadedBy a = .ok settings) (haction : a.text? "--action" = some ("destroy" : Text))
    (hname : a.text? "--queue-name" = some name) (hsome : name ≠ []) :
    ∃ v, EStateM.run (queueBody s a) w = EStateM.run (destroy name) v ∧ Quiet w v := by
  let line : Text := ("Queue " : Text) ++ ("destroy" : Text)
  have hprint : EStateM.run (print line) w = .ok () (w.record (.out line.withoutControls)) :=
    run_print w (by decide +kernel)
  obtain ⟨c, v, hconnector, hquiet⟩ :=
    run_connector settings (w.record (.out line.withoutControls))
  refine ⟨v, ?_, (Quiet.out w line.withoutControls).trans hquiet⟩
  have hgiven : ¬ ((("destroy" : Text) = "create" ∨ ("destroy" : Text) = "destroy") ∧ name.isEmpty = true) := by
    simp [hsome]
  rw [queueBody, haction, hname]
  dsimp only [Option.getD_some]
  rw [run_bind_of_ok hprint, if_neg hgiven, run_bind_of_ok (run_settings _ hsettings), run_bind_of_ok hconnector,
    if_neg (by decide), if_neg (by decide), if_pos rfl]

end Command

/-! ## What comes of deleting a missing queue -/

open Command in
/-- What comes of deleting a queue that a service does not have. -/
structure MissingDeleted {σ : Type} [Service σ] (r : Registry σ) : Prop where
  /-- A queue that is bound to its URL, and can be put into words: the refusal surfaces as an operation error, after the
  one call. -/
  bound : ∀ (w : World σ) ref q url, w.store.object? ref = some (.queue q) → q.url = .text url →
    (w.store.expanded (.shared ref)).Tellable → url ∉ r.existing w.service → ∃ e v failure,
      (Action.deleteQueue (.shared ref)).run w = .error (.bus e) v ∧ e.kind = .operation ∧
      Makes w [⟨.deleteQueue (.text url), .error failure⟩] v ∧ r.existing v.service = r.existing w.service
  /-- A queue that is only named: it is created by its lookup, deleted again, and all that ends in success. -/
  named : ∀ (w : World σ) ref q name, w.store.object? ref = some (.queue q) → q.url = .null → q.name = .text name →
    r.urlOf name ∉ r.existing w.service → ∃ v created deleted,
      (Action.deleteQueue (.shared ref)).run w = .ok () v ∧
      Makes w [⟨.createQueue (.text name), .ok created⟩, ⟨.deleteQueue (.text (r.urlOf name)), .ok deleted⟩] v ∧
      r.urlOf name ∈ r.existing (w.after (.createQueue (.text name))).service ∧
      r.existing v.service = r.existing w.service ∧ v.handle? ref = some (.text (r.urlOf name))
  /-- The command knows queues by name only, so it ends by telling that the missing queue is destroyed. -/
  destroyed : ∀ (w : World σ) s settings args a name, Arguments.check (queueSpecs ++ commonSpecs) args = .ok a →
    a.flag "--help" = false → s.loadedBy a = .ok settings → a.text? "--action" = some ("destroy" : Text) →
    a.text? "--queue-name" = some name → name ≠ [] → r.urlOf name ∉ r.existing w.service → ∃ v created deleted,
      queue s args w = (lastLine (destroyedLine name), v) ∧
      Makes w [⟨.createQueue (.text name), .ok created⟩, ⟨.deleteQueue (.text (r.urlOf name)), .ok deleted⟩] v ∧
      r.existing v.service = r.existing w.service

theorem missing_deleted {σ : Type} [Service σ] (r : Registry σ) : MissingDeleted r := by
  constructor
  case bound => exact fun w ref q url hq hurl hx hmissing => Action.deleteQueue_bound r hq hurl hx hmissing
  case named => exact fun w ref q name hq hurl hname hmissing => Action.deleteQueue_named r hq hurl hname hmissing
  case destroyed =>
    intro w s settings args a name hcheck hhelp hsettings haction hname hsome hmissing
    obtain ⟨v, hbody, hbefore⟩ := Command.run_queueBody w hsettings haction hname hsome
    rw [← hbefore.service] at hmissing
    obtain ⟨u, created, deleted, hdestroy, hmakes, hset⟩ := Command.run_destroy r hmissing
    obtain ⟨t, hrun, hbehind⟩ := Command.ends_of_print "queue" hcheck hhelp (hbody.trans hdestroy)
    refine ⟨t, created, deleted, hrun, (hbefore.makes.trans hmakes).before hbehind.makes, ?_⟩
    rw [hbehind.service, hset, hbefore.service]

/-! ## A service that is a set of queues -/

/-- The URLs of some queues. -/
structure Shelf where
  urls : List Text

namespace Shelf

/-- The refusal to delete a queue that is missing. -/
def nonExistent : Failure :=
  .refused (Value.ofFields [("Error", Value.ofFields [("Code", .text "AWS.SimpleQueueService.NonExistentQueue"),
    ("Message", .text "The specified queue does not exist.")])]) "DeleteQueue"

def answer : Request → Shelf → Reply × Shelf
  | .createQueue (.text name), s =>
    (⟨0, none, .ok (Value.ofFields [("QueueUrl", .text (Script.queueUrl name))])⟩, ⟨Script.queueUrl name :: s.urls⟩)
  | .deleteQueue (.text url), s =>
    if url ∈ s.urls then (⟨0, none, .ok (.dict [])⟩, ⟨s.urls.filter (· ≠ url)⟩)
    else (⟨0, none, .error nonExistent⟩, s)
  | _, s => (⟨0, none, .ok (.dict [])⟩, s)

instance : Service Shelf := ⟨answer⟩

theorem nonExistent_regular : nonExistent.Regular := by
  refine ⟨⟨_, rfl⟩, ?_⟩
  intro response operation hrefused
  cases hrefused
  refine ⟨_, rfl, ?_, fun listed hlisted => by cases hlisted⟩
  intro error herror
  cases herror
  refine ⟨_, rfl, ?_⟩
  intro code hcode
  cases hcode
  exact .inr ⟨_, rfl⟩

theorem nonExistent_not_isCredential : ¬ nonExistent.IsCredential := by
  have hspelt : nonExistent.spelt = [("AWS.SimpleQueueService.NonExistentQueue" : Text)] := rfl
  rw [Failure.IsCredential, ← Failure.mem_spelt_iff nonExistent_regular (by decide),
    ← Failure.mem_spelt_iff nonExistent_regular (by decide), hspelt]
  simp [Text.ofString_inj]

/-- The queues of a shelf as a registry. -/
def registry : Registry Shelf where
  existing s := { url | url ∈ s.urls }
  urlOf := Script.queueUrl
  created name s := ⟨_, rfl, rfl, by ext; simp [Service.answer, answer]⟩
  deleted url s h := by
    have hmem : url ∈ s.urls := h
    refine ⟨.dict [], ?_, ?_⟩
    · simp [Service.answer, answer, hmem]
    · ext
      simp [Service.answer, answer, hmem]
  missing url s h := by
    have hmem : url ∉ s.urls := h
    refine ⟨_, _, ?_, nonExistent_regular, nonExistent_not_isCredential, ?_⟩
    · simp [Service.answer, answer, hmem, nonExistent]
    · simp [Service.answer, answer, hmem]

/-- A world without queues, and with an object for one that is bound to its URL. -/
def bare : World Shelf :=
  { started := 0, elapsed := 0, timers := [], running := true, service := ⟨[]⟩,
    store := ⟨[.queue ⟨.text "queue", .text "orders", .text (Script.queueUrl "orders")⟩]⟩, serial := 0, patience := 0,
    trace := [] }

/-- The missing queue `orders` is refused under its URL, and destroyed by its name. -/
theorem bare_deleted :
    (∃ e v, (Action.deleteQueue (.shared 0)).run bare = .error (.bus e) v ∧ e.kind = .operation) ∧
      ∃ v created deleted,
        Command.queue ⟨[], none, none⟩ ["--action", "destroy", "--queue-name", "orders"] bare = (⟨0, none⟩, v) ∧
        Makes bare [⟨.createQueue (.text "orders"), .ok created⟩,
          ⟨.deleteQueue (.text (Script.queueUrl "orders")), .ok deleted⟩] v ∧ registry.existing v.service = ∅ := by
  have hmissing : Script.queueUrl "orders" ∉ registry.existing bare.service := List.not_mem_nil
  have hdeleted := missing_deleted registry
  constructor
  · obtain ⟨e, v, _, hrun, hkind, -⟩ := hdeleted.bound bare 0 _ _ rfl rfl
      (Store.tellable_named rfl (Queue.named_worded ..)) hmissing
    exact ⟨e, v, hrun, hkind⟩
  · obtain ⟨v, created, deleted, hrun, hmakes, hset⟩ := hdeleted.destroyed bare ⟨[], none, none⟩ _
      ["--action", "destroy", "--queue-name", "orders"] _ "orders" rfl rfl rfl rfl rfl (by decide) hmissing
    refine ⟨v, created, deleted, hrun, hmakes, ?_⟩
    rw [hset]
    ext
    simp [registry, bare]

end Shelf

end MessageBus
