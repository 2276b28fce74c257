import MessageBus.Proofs.Failures
import MessageBus.Proofs.Operations
import MessageBus.Proofs.Questions

/-!
# Checks before calls

Acknowledging a message, receiving and deleting a queue begin with checks: of the receipt handle, then of the
destination. What they find wrong is refused before anything is done (`checked_first`), and which error it is
refused with tells what was wrong, as long as that can be put into words. For that the errors of the checks must not
come from elsewhere: behind the checks an operation ends in no error of the bus but one that tells a failure
(`Remote`).
-/

namespace MessageBus

/-! ## Faults that come from the services -/

/-- A fault that no check raises: as an error of the bus it tells a failure of a service. -/
def Fault.IsRemote : Fault → Prop
  | .bus e => e.kind = .security ∨ e.kind = .operation
  | _ => True

theorem Fault.OfShape.isRemote {f : Fault} (h : f.OfShape) : f.IsRemote := by
  cases h <;> trivial

theorem Failure.kind_of_classify {f : Failure} {context : Text} {e : BusError} (h : f.classify context = .ok e) :
    e.kind = .security ∨ e.kind = .operation := by
  obtain ⟨words, -, h⟩ := bind_eq_ok.mp h
  obtain ⟨security, -, h⟩ := bind_eq_ok.mp h
  cases h
  cases security with
  | true => exact .inl rfl
  | false => exact .inr rfl

theorem Failure.kind_of_toldIn {f : Failure} {context : Except Fault Text} {e : BusError}
    (h : f.toldIn context = .ok e) : e.kind = .security ∨ e.kind = .operation := by
  obtain ⟨c, -, hc⟩ := toldIn_eq_ok h
  exact kind_of_classify hc

namespace Action

variable {σ α β : Type}

/-- The run ends in an error of the bus of this kind. -/
def Raises (kind : ErrorKind) (r : EStateM.Result Fault (World σ) α) : Prop :=
  ∃ e v, r = .error (.bus e) v ∧ e.kind = kind

/-- Whatever fault the run ends in, no check has raised it. -/
def Remote (r : EStateM.Result Fault (World σ) α) : Prop := ∀ f v, r = .error f v → f.IsRemote

namespace Remote

theorem ok (a : α) (v : World σ) : Remote (.ok a v) := nofun

theorem error {f : Fault} (hf : f.IsRemote) (v : World σ) : Remote (.error f v : EStateM.Result _ _ α) := by
  rintro _ _ ⟨⟩
  exact hf

theorem told {e : BusError} (he : e.kind = .security ∨ e.kind = .operation) (v : World σ) :
    Remote (.error (.bus e) v : EStateM.Result _ _ α) := by
  rintro _ _ ⟨⟩
  exact he

theorem bind {x : Action σ α} {f : α → Action σ β} {w : World σ} (hx : Remote (x.run w))
    (hf : ∀ a v, x.run w = .ok a v → Remote ((f a).run v)) : Remote ((x >>= f).run w) := by
  cases hr : x.run w with
  | ok a v =>
    rw [run_bind_of_ok hr]
    exact hf a v hr
  | error g v =>
    rw [run_bind_of_error hr]
    exact error (hx g v hr) v

theorem not_raises {r : EStateM.Result Fault (World σ) α} (h : Remote r) {kind : ErrorKind}
    (hs : kind ≠ .security) (ho : kind ≠ .operation) : ¬ Raises kind r := by
  rintro ⟨e, v, rfl, rfl⟩
  exact (h _ v rfl).elim hs ho

end Remote

theorem raises_error {kind : ErrorKind} {e : BusError} {v : World σ} :
    Raises kind (.error (.bus e) v : EStateM.Result _ _ α) ↔ e.kind = kind := by
  constructor
  · rintro ⟨_, _, ⟨⟩, h⟩
    exact h
  · exact fun h => ⟨e, v, rfl, h⟩

theorem not_raises_of_inWords {x : Value} {f : Fault} (h : x.inWords = .error f) (w : World σ) {kind : ErrorKind} :
    ¬ Raises kind (.error f w : EStateM.Result Fault (World σ) α) := by
  rintro ⟨e, _, ⟨⟩, -⟩
  exact (Value.wordless_of_inWords h).ne_bus e rfl

theorem sleep_remote (interval : Value) (w : World σ) : Remote ((sleep interval).run w) := by
  intro f v hf
  obtain ⟨hpause, -⟩ | ⟨_, -, -, rfl, -⟩ := run_sleep_error hf
  · obtain rfl | ⟨_, rfl⟩ | ⟨_, rfl⟩ := Value.pause_faults hpause
    · trivial
    · trivial
    · trivial
  · trivial

theorem HandOverEnds.remote {queue : Value} {a : Option Value} {u : World σ}
    {r : EStateM.Result Fault (World σ) (Option Ref)} (h : HandOverEnds queue u a r) : Remote r := by
  cases h with
  | nothing => exact .ok _ _
  | nameless hid => exact .error (Asked.item _ _ _ hid).isRemote _
  | bodiless hid hbody => exact .error (Asked.item _ _ _ hbody).isRemote _
  | unmade hid hbody hm => exact .error (converted_asked _ _ _ hm).isRemote _
  | handed hid hbody hm => exact .ok _ _

variable [Service σ]

theorem RequestEnds.remote {context : Except Fault Text} {q : Request} {w : World σ} {values : List Value}
    {r : EStateM.Result Fault (World σ) Value} (h : RequestEnds context q w r) (hc : TellsOf values context) :
    Remote r := by
  cases h with
  | answered ho => exact .ok _ _
  | failed ho he => exact .told (Failure.kind_of_toldIn he) _
  | untold ho he => exact .error (Failure.toldIn_asked (.tellsOf hc) _ _ he).isRemote _

theorem LookupEnds.remote {d : Ref} {o : Object} {w : World σ} {r : EStateM.Result Fault (World σ) Value}
    (h : LookupEnds d o w r) : Remote r := by
  cases h with
  | known ho hh => exact .ok _ _
  | found hq ho hh => exact .ok _ _
  | malformed hq ho hh => exact .error (Asked.item _ _ _ hh).isRemote _
  | failed hq hr hc => exact hr.remote hc

theorem RoundEnds.remote {c : Connector} {queue url : Value} {w : World σ}
    {r : EStateM.Result Fault (World σ) (Option Value)} (h : RoundEnds c queue url w r) : Remote r := by
  cases h with
  | failed hw ho he => exact .told (Failure.kind_of_toldIn he) _
  | untold hw ho he => exact .error (Failure.toldIn_asked (pollContext_asked w queue) _ _ he).isRemote _
  | malformed hw ho ha => exact .error (handedOut_asked _ _ ha).isRemote _
  | lost hw ho ha hv hh hr ht => exact .error (Failure.text_asked _ _ ht).isRemote _
  | handleless hw ho ha hv hh => exact .error (Asked.item _ _ _ hh).isRemote _
  | _ => exact .ok _ _

/-- The induction is on the course of the loop, which a round or a sleep ends. -/
theorem Awaits.remote {c : Connector} {queue url : Value} {timeout : Int} {start : Rat} {w : World σ}
    {es : List Entry} {r : EStateM.Result Fault (World σ) (Option Value)}
    (h : Awaits c queue url timeout start w es r) : Remote r := by
  induction h with
  | fault hr hes => exact hr ▸ (roundEnds c queue url _).remote
  | record hr hes => exact .ok _ _
  | late hr hes hd => exact .ok _ _
  | halt hr hes hd hs hb hbegun => exact .error (sleep_remote c.interval _ _ _ hs) _
  | again hr hes hd hs rest ih => exact ih

/-! ## What has to be a queue -/

omit [Service σ] in
def IsQueue (w : World σ) (x : Value) : Prop := ∃ d q, x = .shared d ∧ w.store.object? d = some (.queue q)

omit [Service σ] in
theorem not_isQueue {w : World σ} {x : Value} (h : ∀ d q, x = .shared d → w.store.object? d ≠ some (.queue q)) :
    ¬ IsQueue w x := by
  rintro ⟨d, q, hd, hq⟩
  exact h d q hd hq

/-- How an operation ends that needs a queue for its operand: refused before it does anything if there is none. What
is refused but cannot be put into words ends in the fault of that. -/
structure NeedsQueue (x : Value) (w : World σ) (r : EStateM.Result Fault (World σ) α) : Prop where
  absent : Raises .invalidArgument r ↔ x = .null
  other : Raises .internal r ↔ x ≠ .null ∧ ¬ IsQueue w x ∧ (w.store.expanded x).Tellable
  told : Raises .internal r → r = .error (.bus ⟨.internal, "Not a queue: " ++ (w.store.expanded x).shown, .none⟩) w
  wordless : x ≠ .null → ¬ IsQueue w x → ∀ f, (w.store.expanded x).inWords = .error f → r = .error f w
  idle : ¬ IsQueue w x → left r = w

/-- An operation that resolves its operand first, and then does what no check of the bus refuses. -/
theorem needsQueue {x : Value} {f : Value → Action σ α} {w : World σ}
    (hf : ∀ url v, (resolveQueue x).run w = .ok url v → Remote ((f url).run v)) :
    NeedsQueue x w ((resolveQueue x >>= f).run w) := by
  have hends := resolveEnds x w
  generalize hr : (resolveQueue x).run w = r at hends
  cases hends with
  | absent hx =>
    rw [run_bind_of_error hr]
    have hnull := Value.eq_null_of_isNull hx
    refine ⟨?_, ?_, ?_, fun hx => absurd hnull hx, fun _ => rfl⟩
    · simp [raises_error, hnull]
    · simp [raises_error, hnull]
    · simp [raises_error]
  | @other t hx ho ht =>
    rw [run_bind_of_error hr]
    have hnull := Value.ne_null_of_isNull hx
    have hqueue := not_isQueue ho
    obtain rfl := Value.inWords_eq_ok ht
    refine ⟨?_, ?_, fun _ => rfl, fun _ _ f hf => ?_, fun _ => rfl⟩
    · simp [raises_error, hnull]
    · exact iff_of_true (raises_error.mpr rfl) ⟨hnull, hqueue, ht⟩
    · cases ht.symm.trans hf
  | wordless hx ho ht =>
    rw [run_bind_of_error hr]
    refine ⟨iff_of_false (not_raises_of_inWords ht w) (Value.ne_null_of_isNull hx),
      iff_of_false (not_raises_of_inWords ht w) fun h => ?_, fun h => absurd h (not_raises_of_inWords ht w),
      fun _ _ g hg => ?_, fun _ => rfl⟩
    · cases ht.symm.trans h.2.2
    · cases ht.symm.trans hg
      rfl
  | @queue d q _ hx ho hu =>
    subst hx
    have hqueue : IsQueue w (.shared d) := ⟨d, q, rfl, ho⟩
    have hremote : Remote ((resolveQueue (.shared d) >>= f).run w) := by
      refine .bind ?_ hf
      rw [run_resolveQueue ho]
      exact (lookupEnds_queue d q w).remote
    have hargument : ¬ Raises .invalidArgument ((resolveQueue (.shared d) >>= f).run w) :=
      hremote.not_raises nofun nofun
    have hinternal : ¬ Raises .internal ((resolveQueue (.shared d) >>= f).run w) := hremote.not_raises nofun nofun
    exact ⟨iff_of_false hargument nofun, iff_of_false hinternal fun h => h.2.1 hqueue, fun h => absurd h hinternal,
      fun _ h => absurd hqueue h, fun h => absurd hqueue h⟩

theorem receive_needsQueue (c : Connector) (x : Value) (timeout : Int) (w : World σ) :
    NeedsQueue x w ((receive c x timeout).run w) := by
  rw [receive_eq, run_bind_of_ok (EStateM.run_get w)]
  refine needsQueue fun url v _ => .bind ?_ fun a u _ => (handOverEnds x a u).remote
  obtain ⟨es, hcourse⟩ := awaits c x url timeout w.elapsed v
  exact hcourse.remote

omit [Service σ] in
theorem Unbound.queue {q : Queue} {s : Store} {r : Request} {key : Text} (h : Unbound (.queue q) s r key) :
    q.url = .null ∧ r = .createQueue (s.expanded q.name) ∧ key = "QueueUrl" := by
  obtain ⟨hhandle, hlookup, hkey⟩ := h
  cases hlookup
  cases hkey
  exact ⟨Option.some.inj hhandle, rfl, rfl⟩

/-- The requests of an acknowledgement of a message with a receipt handle, which came from the queue `q` under `d`:
one that `make` makes of the queue's URL and the handle, behind a lookup if the queue is not bound, and none if the
lookup has found no URL. -/
inductive Acknowledges (make : Value → Value → Request) (handle : Value) (d : Ref) (q : Queue) (w : World σ) :
    List Request → Prop where
  | bound (hq : q.url ≠ .null) :
      Acknowledges make handle d q w [make (w.store.expanded q.url) (w.store.expanded handle)]
  | found {answer url : Value} (hq : q.url = .null) (ho : (w.reply (lookupOf w q)).outcome = .ok answer)
      (hurl : answer.item "QueueUrl" = .ok url) :
      Acknowledges make handle d q w
        [lookupOf w q, make url ((w.put d (.queue { q with url := url })).store.expanded handle)]
  | unfound (hq : q.url = .null)
      (ho : ∀ answer url, (w.reply (lookupOf w q)).outcome = .ok answer → answer.item "QueueUrl" ≠ .ok url) :
      Acknowledges make handle d q w [lookupOf w q]

theorem LookupEnds.unfound {make : Value → Value → Request} (handle : Value) {d : Ref} {q : Queue} {w v : World σ}
    {f : Fault} (h : LookupEnds d (.queue q) w (.error f v)) :
    ∃ requests, calls v.trace = calls w.trace ++ requests ∧ Acknowledges make handle d q w requests := by
  cases h with
  | malformed hq ho hh =>
    obtain ⟨hurl, rfl, rfl⟩ := hq.queue
    refine ⟨_, (Makes.after w (lookupOf w q)).calls, .unfound hurl fun answer url hanswer hfound => ?_⟩
    rw [ho] at hanswer
    cases hanswer
    rw [hh] at hfound
    cases hfound
  | failed hq hr =>
    obtain ⟨hurl, rfl, rfl⟩ := hq.queue
    refine ⟨_, hr.makes.calls, .unfound hurl fun answer url hanswer _ => ?_⟩
    cases hr with
    | failed ho _ | untold ho _ =>
      rw [ho] at hanswer
      cases hanswer

/-- A queue that is found is bound, so what is told of the handle is told with its URL. -/
theorem LookupEnds.acknowledged {make : Value → Value → Request} {handle : Value} {d : Ref} {q : Queue}
    {w v : World σ} {url : Value} {context : Except Fault Text} {r : EStateM.Result Fault (World σ) Value}
    (h : LookupEnds d (.queue q) w (.ok url v)) (hr : RequestEnds context (make url (v.store.expanded handle)) v r) :
    ∃ requests, calls (left r).trace = calls w.trace ++ requests ∧ Acknowledges make handle d q w requests := by
  cases h with
  | known ho hh =>
    have hurl : q.url = _ := Option.some.inj ho
    subst hurl
    exact ⟨_, hr.makes.calls, .bound (Value.ne_null_of_isNull hh)⟩
  | found hq ho hh =>
    obtain ⟨hurl, rfl, rfl⟩ := hq.queue
    have hmakes := (Makes.after w (lookupOf w q)).trans ((Makes.put_note ..).trans hr.makes)
    exact ⟨_, hmakes.calls, .found hurl ho hh⟩

/-- A world with a queue that is not bound, and a message that came from it. -/
def delivered : World Script :=
  { started := 0, elapsed := 0, timers := [], running := true, service := .empty,
    store := ⟨[.queue (Queue.named "orders"), .message
      { kind := .text "message", body := .text "a", properties := .dict [(.text receiptKey, .text "handle")],
        messageId := .null, timestamp := .null, disableMessageId := .bool false, disableTimestamp := .bool false,
        correlationId := .null, messageType := .null, destination := .shared 0, diagnosis := none }]⟩,
    serial := 0, patience := 0, trace := [] }

def barren : World Script :=
  { started := 0, elapsed := 0, timers := [], running := true, service := .empty, store := .empty, serial := 0,
    patience := 0, trace := [] }

/-- What is no queue is not always refused: nothing can be said of a list with too many others in it. -/
theorem enclosed_not_refused : ¬ ∀ c x timeout (w : World Script), x ≠ .null → ¬ IsQueue w x →
    Raises .internal ((receive c x timeout).run w) := by
  intro h
  have hnull : Value.enclosed Value.levelsInWords .null ≠ .null := nofun
  have hqueue : ¬ IsQueue barren (Value.enclosed Value.levelsInWords .null) := by
    rintro ⟨d, q, hd, -⟩
    cases hd
  have hneeds := receive_needsQueue ⟨.int 1000, .null⟩ (Value.enclosed Value.levelsInWords .null) 0 barren
  have hraises := hneeds.other.mp (h _ _ _ _ hnull hqueue)
  cases hraises.2.2.symm.trans (Value.inWords_enclosed .null)

end Action

end MessageBus
