import MessageBus.Proofs.RecordFate
import MessageBus.Proofs.Sending

/-!
# Calls of the services

The calls that were made up to some moment, each with what came of it (`World.made`), and those made between
two moments (`Makes`). A request is one call, whatever comes of it (`RequestEnds`). A destination that is not
bound yet is looked up with one call and bound to the handle that the answer carries; queues and topics do
so alike (`LookupEnds`).
-/

namespace MessageBus

theorem Value.eq_null_of_isNull {v : Value} (h : v.isNull = true) : v = .null := by
  cases v <;> first | rfl | cases h

theorem Value.ne_null_of_isNull {v : Value} (h : v.isNull = false) : v ≠ .null := by
  rintro rfl
  cases h

/-- A call of a service: the request, and what came of it. -/
structure Call where
  request : Request
  outcome : Except Failure Value

/-- The call that an entry completes. -/
def Entry.call? (e : Entry) : Option Call :=
  match e.event with
  | .answer q o => some ⟨q, o⟩
  | _ => none

theorem Entry.call?_of_isLog {e : Entry} (h : e.isLog) : e.call? = none := by
  rcases h with ⟨_, _, _, he⟩
  rw [call?, he]

namespace Request

/-- Where the answer to a lookup carries the handle; no other request is answered with one. -/
def handleKey? : Request → Option Text
  | .createQueue _ => some "QueueUrl"
  | .createTopic _ => some "TopicArn"
  | _ => none

/-- The handle of the destination that a request is about. -/
def handle? : Request → Option Value
  | .deleteQueue url => some url
  | .sendMessage url _ => some url
  | .receiveMessage url _ => some url
  | .deleteMessage url _ => some url
  | .changeVisibility url _ => some url
  | .publish arn _ => some arn
  | _ => none

/-- The request looks a destination up by its name. -/
def IsLookup (q : Request) : Prop := q.handleKey?.isSome

end Request

namespace Object

/-- The handle of a destination, `null` as long as it is not bound. -/
def handle? : Object → Option Value
  | .queue q => some q.url
  | .topic t => some t.arn
  | .message _ => none

/-- A destination with another handle. -/
def withHandle (h : Value) : Object → Object
  | .queue q => .queue { q with url := h }
  | .topic t => .topic { t with arn := h }
  | .message m => .message m

/-- A value that tells of an object by its fields. -/
def told (s : Store) (o : Object) : Value := .record o.type (o.map s.expanded).fields

/-- The request that looks up a destination. -/
def lookup? (s : Store) : Object → Option Request
  | .queue q => some (.createQueue (s.expanded q.name))
  | .topic t => some (.createTopic (s.expanded t.name))
  | .message _ => none

theorem handle?_withHandle {o : Object} {h : Value} (ho : o.handle? = some h) (h' : Value) :
    (o.withHandle h').handle? = some h' := by
  cases o with
  | message m => cases ho
  | _ => rfl

end Object

/-- A destination object is no message object. -/
theorem Store.ne_of_handle {s : Store} {d ref : Ref} {o : Object} {h : Value} {m : Message Value}
    (ho : s.object? d = some o) (hh : o.handle? = some h) (hm : s.object? ref = some (.message m)) : d ≠ ref := by
  rintro rfl
  rw [ho] at hm
  cases hm
  cases hh

namespace World

variable {σ : Type}

/-- The calls made so far. -/
def made (w : World σ) : List Call := w.trace.filterMap Entry.call?

/-- The handle of a destination object, if there is one under a number. -/
def handle? (w : World σ) (ref : Ref) : Option Value := (w.store.object? ref).bind Object.handle?

theorem handle?_of_object {w : World σ} {ref : Ref} {o : Object} (h : w.store.object? ref = some o) :
    w.handle? ref = o.handle? := by
  rw [handle?, h]
  rfl

theorem object_of_handle {w : World σ} {ref : Ref} {h : Value} (hw : w.handle? ref = some h) :
    ∃ o, w.store.object? ref = some o ∧ o.handle? = some h :=
  Option.bind_eq_some_iff.mp hw

theorem handle?_congr {w v : World σ} (h : v.store = w.store) (ref : Ref) : v.handle? ref = w.handle? ref := by
  rw [handle?, handle?, h]

/-- A message in the place of a message leaves all destination objects alone. -/
theorem destination_put {w : World σ} {d ref : Ref} {o : Object} {h : Value} {m : Message Value}
    (ho : w.store.object? d = some o) (hh : o.handle? = some h) (hm : w.store.object? ref = some (.message m))
    (m' : Message Value) : (w.put ref (.message m')).store.object? d = some o := by
  rw [store_put, Store.object?_replace_other _ (Store.ne_of_handle ho hh hm).symm, ho]

/-- A message in the place of a message leaves all handles alone. -/
theorem handle?_put_message {w : World σ} {ref : Ref} {m : Message Value}
    (hm : w.store.object? ref = some (.message m)) (m' : Message Value) (other : Ref) :
    (w.put ref (.message m')).handle? other = w.handle? other := by
  by_cases hother : ref = other
  · subst hother
    rw [handle?_of_object (Store.object?_replace_self hm), handle?_of_object hm]
    rfl
  · rw [handle?, handle?, store_put, Store.object?_replace_other _ hother]

theorem handle?_put_withHandle {w : World σ} {ref : Ref} {o : Object} {h : Value}
    (ho : w.store.object? ref = some o) (hh : o.handle? = some h) (h' : Value) :
    (w.put ref (o.withHandle h')).handle? ref = some h' := by
  rw [handle?_of_object (Store.object?_replace_self ho)]
  exact o.handle?_withHandle hh h'

theorem handle?_put_other (w : World σ) {ref other : Ref} (o : Object) (h : ref ≠ other) :
    (w.put ref o).handle? other = w.handle? other := by
  rw [handle?, handle?, store_put, Store.object?_replace_other _ h]

end World

/-- From one world to another exactly these calls are made. -/
structure Makes {σ : Type} (w : World σ) (cs : List Call) (v : World σ) : Prop where
  made : v.made = w.made ++ cs
  calls : calls v.trace = calls w.trace ++ cs.map (·.request)

namespace Makes

variable {σ : Type} {w v u : World σ} {cs cs' : List Call}

theorem trans (h : Makes w cs v) (h' : Makes v cs' u) : Makes w (cs ++ cs') u :=
  ⟨by rw [h'.made, h.made, List.append_assoc], by rw [h'.calls, h.calls, List.map_append, List.append_assoc]⟩

/-- What makes no call may come behind. -/
theorem before (h : Makes w cs v) (h' : Makes v [] u) : Makes w cs u := by
  have hmakes := h.trans h'
  rwa [List.append_nil] at hmakes

theorem of_trace (h : v.trace = w.trace) : Makes w [] v :=
  ⟨by simp [World.made, h], by simp [h]⟩

theorem refl (w : World σ) : Makes w [] w := of_trace rfl

theorem of_logs {logs : List Entry} (h : v.trace = w.trace ++ logs) (hlogs : ∀ e ∈ logs, e.isLog) :
    Makes w [] v := by
  have hnone : logs.filterMap Entry.call? = [] :=
    List.filterMap_eq_nil_iff.mpr fun e he => Entry.call?_of_isLog (hlogs e he)
  exact ⟨by simp [World.made, h, hnone], by simp [h, calls_eq_nil_of_isLog hlogs]⟩

theorem note (w : World σ) (level : Level) (logger : Logger) (line : Except Fault Text) :
    Makes w [] (w.note level logger line) :=
  of_logs (World.trace_note ..) fun _ => World.isLog_of_mem_noted

theorem log (w : World σ) (level : Level) (logger : Logger) (t : Text) :
    Makes w [] (w.record (.log level logger t)) :=
  note w level logger (.ok t)

theorem put (w : World σ) (ref : Ref) (o : Object) : Makes w [] (w.put ref o) := of_trace rfl

/-- A change of an object and a log line. -/
theorem put_note (w : World σ) (ref : Ref) (o : Object) (level : Level) (logger : Logger) (line : Except Fault Text) :
    Makes w [] ((w.put ref o).note level logger line) :=
  (put w ref o).trans (note (w.put ref o) level logger line)

theorem sleep (w : World σ) (ms : Rat) : Makes w [] (w.record (.sleep ms)) :=
  ⟨by simp [World.made, Entry.call?, World.now], by simp [MessageBus.calls, World.now]⟩

theorem slept (w : World σ) (ms : Rat) : Makes w [] (w.slept ms) :=
  (sleep w ms).trans (of_trace rfl)

theorem after [Service σ] (w : World σ) (q : Request) : Makes w [⟨q, (w.reply q).outcome⟩] (w.after q) :=
  ⟨by rw [World.made, World.trace_after, List.filterMap_append]; rfl, by simp⟩

end Makes

namespace Action

variable {σ : Type}

theorem run_message_foreign {x : Value} {w : World σ}
    (hx : ∀ ref m, x = .shared ref → w.store.object? ref ≠ some (.message m)) :
    (message x).run w = .error .attribute w := by
  simp only [message, EStateM.run_bind, run_find?]
  split
  · next ref m hm => exact absurd hm (hx ref m rfl)
  · rfl

variable [Service σ]

/-- All that a request can do. -/
inductive RequestEnds (context : Except Fault Text) (q : Request) (w : World σ) :
    EStateM.Result Fault (World σ) Value → Prop where
  | answered {answer : Value} (ho : (w.reply q).outcome = .ok answer) :
      RequestEnds context q w (.ok answer (w.after q))
  | failed {failure : Failure} {e : BusError} (ho : (w.reply q).outcome = .error failure)
      (he : failure.toldIn context = .ok e) :
      RequestEnds context q w (.error (.bus e) ((w.after q).record (.log .error .errors e.message)))
  /-- The request fails in a way that cannot be told. -/
  | untold {failure : Failure} {f : Fault} (ho : (w.reply q).outcome = .error failure)
      (he : failure.toldIn context = .error f) :
      RequestEnds context q w (.error f (w.after q))

theorem requestEnds (context : Except Fault Text) (q : Request) (w : World σ) :
    RequestEnds context q w ((request context q).run w) := by
  cases ho : (w.reply q).outcome with
  | ok answer =>
    rw [run_request_ok context ho]
    exact .answered ho
  | error failure =>
    rw [run_request_error context ho]
    cases he : failure.toldIn context with
    | ok e => exact .failed ho he
    | error f => exact .untold ho he

theorem RequestEnds.trace {context : Except Fault Text} {q : Request} {w : World σ}
    {r : EStateM.Result Fault (World σ) Value} (h : RequestEnds context q w r) :
    ∃ logs, (left r).trace = w.trace ++ (w.exchange q ++ logs) ∧ ∀ e ∈ logs, e.isLog := by
  cases h with
  | answered ho => exact ⟨[], by simp [left], by simp⟩
  | @failed failure e ho he =>
    refine ⟨[(w.after q).now (.log .error .errors e.message)], by simp [left], ?_⟩
    intro x hx
    rw [List.mem_singleton.mp hx]
    exact World.isLog_now ..
  | untold ho he => exact ⟨[], by simp [left], by simp⟩

theorem RequestEnds.makes {context : Except Fault Text} {q : Request} {w : World σ}
    {r : EStateM.Result Fault (World σ) Value} (h : RequestEnds context q w r) :
    Makes w [⟨q, (w.reply q).outcome⟩] (left r) := by
  obtain ⟨logs, htrace, hlogs⟩ := h.trace
  have hlogged : (left r).trace = (w.after q).trace ++ logs := by
    rw [htrace, World.trace_after, List.append_assoc]
  have hmakes := (Makes.after w q).trans (Makes.of_logs hlogged hlogs)
  rwa [List.append_nil] at hmakes

theorem RequestEnds.store {context : Except Fault Text} {q : Request} {w : World σ}
    {r : EStateM.Result Fault (World σ) Value} (h : RequestEnds context q w r) : (left r).store = w.store := by
  cases h <;> rfl

/-! ## Lookups of queues and topics -/

/-- A destination is not bound, and `q` looks it up: the answer carries its handle under `key`. -/
structure Unbound (o : Object) (s : Store) (q : Request) (key : Text) : Prop where
  handle : o.handle? = some .null
  lookup : o.lookup? s = some q
  key : q.handleKey? = some key

/-- All that the lookup of a destination object can do. -/
inductive LookupEnds (ref : Ref) (o : Object) (w : World σ) :
    EStateM.Result Fault (World σ) Value → Prop where
  | known {h : Value} (ho : o.handle? = some h) (hh : h.isNull = false) :
      LookupEnds ref o w (.ok (w.store.expanded h) w)
  | found {q : Request} {key : Text} {line : Except Fault Text} {answer h : Value} (hq : Unbound o w.store q key)
      (ho : (w.reply q).outcome = .ok answer) (hh : answer.item key = .ok h) :
      LookupEnds ref o w (.ok h (((w.after q).put ref (o.withHandle h)).note .debug .resolver line))
  | malformed {q : Request} {key : Text} {answer : Value} {f : Fault} (hq : Unbound o w.store q key)
      (ho : (w.reply q).outcome = .ok answer) (hh : answer.item key = .error f) :
      LookupEnds ref o w (.error f (w.after q))
  | failed {q : Request} {key : Text} {context : Except Fault Text} {f : Fault} {v : World σ}
      (hq : Unbound o w.store q key) (hr : RequestEnds context q w (.error f v))
      (hc : TellsOf [o.told w.store] context) : LookupEnds ref o w (.error f v)

theorem lookupEnds_queue (ref : Ref) (q : Queue) (w : World σ) :
    LookupEnds ref (.queue q) w ((urlOf ref q).run w) := by
  have hunbound (hq : q.url.isNull = true) : Unbound (.queue q) w.store (lookupOf w q) "QueueUrl" :=
    ⟨by rw [Object.handle?, Value.eq_null_of_isNull hq], rfl, rfl⟩
  have hcontext : TellsOf [(Object.queue q).told w.store] (lookupContext w q) := .map _ _
  have hends := urlEnds ref q w
  generalize (urlOf ref q).run w = r at hends ⊢
  cases hends with
  | known hq => exact .known rfl hq
  | found hq ho hu => exact .found (hunbound hq) ho hu
  | malformed hq ho hu => exact .malformed (hunbound hq) ho hu
  | failed hq ho he => exact .failed (hunbound hq) (.failed ho he) hcontext
  | untold hq ho he => exact .failed (hunbound hq) (.untold ho he) hcontext

theorem lookupEnds_topic (ref : Ref) (t : Topic) (w : World σ) :
    LookupEnds ref (.topic t) w ((arnOf ref t).run w) := by
  unfold arnOf
  cases ht : t.arn.isNull with
  | false => exact .known rfl ht
  | true =>
    have hunbound : Unbound (.topic t) w.store (.createTopic (w.store.expanded t.name)) "TopicArn" :=
      ⟨by rw [Object.handle?, Value.eq_null_of_isNull ht], rfl, rfl⟩
    have hlabel : (topicLabel t).run w = .ok (t.map w.store.expanded).label w := rfl
    simp only [if_true]
    rw [run_bind_of_ok hlabel, run_bind_of_ok (run_expanded _ _), EStateM.run_bind]
    have hends := requestEnds ((t.map w.store.expanded).label.map fun t => "Unable to create/lookup topic: " ++ t)
      (.createTopic (w.store.expanded t.name)) w
    cases hr : (request ((t.map w.store.expanded).label.map fun t => "Unable to create/lookup topic: " ++ t)
        (.createTopic (w.store.expanded t.name))).run w with
    | error f v => exact .failed hunbound (hr ▸ hends) (.map ((Object.topic t).told w.store) _)
    | ok answer v =>
      rw [hr] at hends
      cases hends with
      | answered ho =>
        dsimp only
        cases ha : answer.item "TopicArn" with
        | error f => exact .malformed hunbound ho ha
        | ok arn =>
          have hbind : (bindTopic ref t arn).run (w.after (.createTopic (w.store.expanded t.name))) =
              .ok () ((w.after (.createTopic (w.store.expanded t.name))).put ref
                (.topic { t with arn := arn })) := by
            simp [bindTopic, ht]
          rw [run_bind_of_ok (run_lift_ok _ _), run_bind_of_ok hbind, run_bind_of_ok (run_logTold _ _ _ _)]
          exact .found hunbound ho ha

/-- A bound destination is not looked up. -/
theorem LookupEnds.of_bound {ref : Ref} {o : Object} {w : World σ} {h : Value}
    {r : EStateM.Result Fault (World σ) Value} (hl : LookupEnds ref o w r) (hh : o.handle? = some h)
    (hbound : h.isNull = false) : r = .ok (w.store.expanded h) w := by
  have hunbound {q : Request} {key : Text} (hq : Unbound o w.store q key) : False := by
    have hnull := hq.handle
    rw [hh] at hnull
    cases hnull
    cases hbound
  cases hl with
  | known ho _ =>
    rw [hh] at ho
    cases ho
    rfl
  | found hq => exact (hunbound hq).elim
  | malformed hq => exact (hunbound hq).elim
  | failed hq => exact (hunbound hq).elim

theorem LookupEnds.frame {ref other : Ref} {o : Object} {w : World σ}
    {r : EStateM.Result Fault (World σ) Value} (h : LookupEnds ref o w r) (hother : ref ≠ other) :
    (left r).store.object? other = w.store.object? other := by
  cases h with
  | known ho hh => rfl
  | found hq ho hh => exact Store.object?_replace_other _ hother
  | malformed hq ho hh => rfl
  | failed hq hr => rw [hr.store]

end Action

end MessageBus
