import MessageBus.Proofs.Runs
import MessageBus.Resolver

/-!
# Looking up queues

All that the lookup of a queue can do: a bound queue answers for itself, and an unbound one costs one
request, after which it is bound (`UrlEnds`). What is no queue is refused without a request
(`ResolveEnds`).
-/

namespace MessageBus.Action

variable {σ : Type} [Service σ]

/-- The request that looks up a queue by its name. -/
abbrev lookupOf (w : World σ) (q : Queue) : Request := .createQueue (w.store.expanded q.name)

/-- The context of the error of a lookup that fails. -/
def lookupContext (w : World σ) (q : Queue) : Except Fault Text :=
  (q.map w.store.expanded).label.map fun t => "Unable to get message queue '" ++ t ++ "'"

/-- The log line of a lookup. -/
def resolved (w : World σ) (q : Queue) (url : Value) : Except Fault Text :=
  resolvedLine (q.map w.store.expanded).label url.inWords

/-- The world with a queue bound to the URL that it was looked up under. -/
def bound (w : World σ) (ref : Ref) (q : Queue) (url : Value) : World σ :=
  ((w.after (lookupOf w q)).put ref (.queue { q with url := url })).note .debug .resolver (resolved w q url)

/-- All that the lookup of a queue object can do. -/
inductive UrlEnds (ref : Ref) (q : Queue) (w : World σ) :
    EStateM.Result Fault (World σ) Value → Prop where
  | known (hq : q.url.isNull = false) : UrlEnds ref q w (.ok (w.store.expanded q.url) w)
  | found {answer url : Value} (hq : q.url.isNull = true)
      (ho : (w.reply (lookupOf w q)).outcome = .ok answer) (hu : answer.item "QueueUrl" = .ok url) :
      UrlEnds ref q w (.ok url (bound w ref q url))
  | malformed {answer : Value} {f : Fault} (hq : q.url.isNull = true)
      (ho : (w.reply (lookupOf w q)).outcome = .ok answer) (hu : answer.item "QueueUrl" = .error f) :
      UrlEnds ref q w (.error f (w.after (lookupOf w q)))
  | failed {failure : Failure} {e : BusError} (hq : q.url.isNull = true)
      (ho : (w.reply (lookupOf w q)).outcome = .error failure)
      (he : failure.toldIn (lookupContext w q) = .ok e) :
      UrlEnds ref q w (.error (.bus e) ((w.after (lookupOf w q)).record (.log .error .errors e.message)))
  /-- The lookup fails in a way that cannot be told. -/
  | untold {failure : Failure} {f : Fault} (hq : q.url.isNull = true)
      (ho : (w.reply (lookupOf w q)).outcome = .error failure)
      (he : failure.toldIn (lookupContext w q) = .error f) :
      UrlEnds ref q w (.error f (w.after (lookupOf w q)))

theorem urlEnds (ref : Ref) (q : Queue) (w : World σ) : UrlEnds ref q w ((urlOf ref q).run w) := by
  unfold urlOf
  cases hq : q.url.isNull with
  | false => exact .known hq
  | true =>
    simp only [if_true]
    have hlabel : (queueLabel q).run w = .ok (q.map w.store.expanded).label w := rfl
    rw [run_bind_of_ok hlabel, run_bind_of_ok (run_expanded _ _)]
    cases ho : (w.reply (lookupOf w q)).outcome with
    | error failure =>
      rw [EStateM.run_bind, run_request_error _ ho]
      cases he : failure.toldIn (lookupContext w q) with
      | ok e =>
        rw [lookupContext] at he
        simp only [he]
        exact .failed hq ho he
      | error f =>
        rw [lookupContext] at he
        simp only [he]
        exact .untold hq ho he
    | ok answer =>
      rw [run_bind_of_ok (run_request_ok _ ho)]
      cases hu : answer.item "QueueUrl" with
      | error f => exact .malformed hq ho hu
      | ok url =>
        have hbind : (bindQueue ref q url).run (w.after (lookupOf w q)) =
            .ok () ((w.after (lookupOf w q)).put ref (.queue { q with url := url })) := by
          simp [bindQueue, hq]
        rw [run_bind_of_ok (run_lift_ok _ _), run_bind_of_ok hbind, run_bind_of_ok (run_logTold _ _ _ _)]
        exact .found hq ho hu

/-- A lookup leaves at most its one request and answer, and log lines. -/
theorem UrlEnds.trace {ref : Ref} {q : Queue} {w : World σ} {r : EStateM.Result Fault (World σ) Value}
    (h : UrlEnds ref q w r) :
    ∃ looked, (left r).trace = w.trace ++ looked ∧
      ∀ e ∈ looked, e ∈ w.exchange (lookupOf w q) ∨ e.isLog := by
  have hlast {es logs : List Entry} (hlogs : ∀ log ∈ logs, log.isLog) : ∀ e ∈ es ++ logs, e ∈ es ∨ e.isLog :=
    fun e he => (List.mem_append.mp he).imp_right (hlogs e)
  cases h with
  | known hq => exact ⟨[], by simp [left], by simp⟩
  | @found answer url hq ho hu =>
    refine ⟨_ ++ (w.after (lookupOf w q)).noted .debug .resolver (resolved w q url), ?_,
      hlast fun _ => World.isLog_of_mem_noted⟩
    rw [left, bound, World.trace_note, World.trace_put, World.trace_after, List.append_assoc]
    rfl
  | malformed hq ho hu => exact ⟨_, World.trace_after .., fun e he => .inl he⟩
  | @failed failure e hq ho he =>
    refine ⟨_ ++ [(w.after (lookupOf w q)).now (.log .error .errors e.message)], ?_, hlast ?_⟩
    · simp [left]
    · rintro _ (_ | ⟨_, ⟨⟩⟩)
      exact World.isLog_now ..
  | untold hq ho he => exact ⟨_, World.trace_after .., fun e he => .inl he⟩

theorem UrlEnds.frame {ref other : Ref} {q : Queue} {w : World σ} {r : EStateM.Result Fault (World σ) Value}
    (h : UrlEnds ref q w r) (hother : ref ≠ other) :
    (left r).store.object? other = w.store.object? other := by
  cases h with
  | found hq ho hu => simp [left, bound, Store.object?_replace, hother]
  | _ => rfl

theorem UrlEnds.queue {ref : Ref} {q : Queue} {w v : World σ} {url : Value} (h : UrlEnds ref q w (.ok url v))
    (hq : w.store.object? ref = some (.queue q)) : ∃ found, v.store.object? ref = some (.queue found) := by
  cases h with
  | known _ => exact ⟨q, hq⟩
  | found _ _ _ =>
    refine ⟨{ q with url := url }, ?_⟩
    rw [bound, World.store_note, World.store_put, Store.object?_replace, if_pos rfl, World.store_after, hq]
    rfl

/-- All that the lookup of a value can do. -/
inductive ResolveEnds (x : Value) (w : World σ) : EStateM.Result Fault (World σ) Value → Prop where
  | absent (hx : x.isNull = true) :
      ResolveEnds x w (.error (.bus ⟨.invalidArgument, "Destination is null", .none⟩) w)
  | other {t : Text} (hx : x.isNull = false)
      (ho : ∀ ref q, x = .shared ref → w.store.object? ref ≠ some (.queue q))
      (ht : (w.store.expanded x).inWords = .ok t) :
      ResolveEnds x w (.error (.bus ⟨.internal, "Not a queue: " ++ t, .none⟩) w)
  /-- What is no queue cannot be put into words. -/
  | wordless {f : Fault} (hx : x.isNull = false)
      (ho : ∀ ref q, x = .shared ref → w.store.object? ref ≠ some (.queue q))
      (ht : (w.store.expanded x).inWords = .error f) : ResolveEnds x w (.error f w)
  | queue {ref : Ref} {q : Queue} {r : EStateM.Result Fault (World σ) Value} (hx : x = .shared ref)
      (ho : w.store.object? ref = some (.queue q)) (hr : UrlEnds ref q w r) : ResolveEnds x w r

theorem resolveEnds_other {x : Value} {w : World σ} (hx : x.isNull = false)
    (ho : ∀ ref q, x = .shared ref → w.store.object? ref ≠ some (.queue q)) :
    ResolveEnds x w ((shown x >>= fun t => refuse .internal ("Not a queue: " ++ t)).run w) := by
  rw [EStateM.run_bind, run_shown]
  cases ht : (w.store.expanded x).inWords with
  | ok t => exact .other hx ho ht
  | error f => exact .wordless hx ho ht

theorem resolveEnds (x : Value) (w : World σ) : ResolveEnds x w ((resolveQueue x).run w) := by
  unfold resolveQueue
  cases hx : x.isNull with
  | true => exact .absent hx
  | false =>
    simp only [Bool.false_eq_true, if_false]
    rw [run_bind_of_ok (run_find? _ _)]
    split
    · next ref q ho => exact .queue rfl ho (urlEnds ref q w)
    · next hother =>
      refine resolveEnds_other hx fun ref q href ho => ?_
      subst href
      exact hother ref q rfl ho

theorem run_resolveQueue {ref : Ref} {q : Queue} {w : World σ} (h : w.store.object? ref = some (.queue q)) :
    (resolveQueue (.shared ref)).run w = (urlOf ref q).run w := by
  simp [resolveQueue, Value.isNull, run_bind_of_ok (run_find? _ _), Store.find?, h]

theorem ResolveEnds.trace {x : Value} {w : World σ} {r : EStateM.Result Fault (World σ) Value}
    (h : ResolveEnds x w r) :
    ∃ looked, (left r).trace = w.trace ++ looked ∧
      ∀ e ∈ looked, (∃ q, e ∈ w.exchange (lookupOf w q)) ∨ e.isLog := by
  cases h with
  | absent hx => exact ⟨[], by simp [left], by simp⟩
  | other hx ho ht => exact ⟨[], by simp [left], by simp⟩
  | wordless hx ho ht => exact ⟨[], by simp [left], by simp⟩
  | queue hx ho hr =>
    obtain ⟨looked, htrace, hlooked⟩ := hr.trace
    exact ⟨looked, htrace, fun e he => (hlooked e he).imp_left fun hmem => ⟨_, hmem⟩⟩

end MessageBus.Action
