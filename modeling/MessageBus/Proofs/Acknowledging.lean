import MessageBus.Proofs.Calls

/-!
# All that an acknowledgement can do

A received message is deleted, or made visible again, with one request that carries the URL of the queue that
it came from and its receipt handle. Both operations are one (`Action.acknowledge`) but for that request and
the words of their errors. `AcknowledgeEnds` lists its ends.
-/

namespace MessageBus.Action

variable {σ : Type} [Service σ]

/-- Acknowledges a message with the request that `make` makes of the URL and the receipt handle. -/
def acknowledge (done attempt : Text) (make : Value → Value → Request) (x : Value) : Action σ Unit := do
  let (_, m) ← message x
  let handle ← receiptOf m done
  let url ← originOf m
  let handle ← expanded handle
  let id ← words m.messageId
  let _ ← request (acknowledgeContext attempt id handle.inWords) (make url handle)

theorem delete_eq : (delete : Value → Action σ Unit) =
    acknowledge "deleted" "Unable to delete message" .deleteMessage := rfl

theorem reset_eq : (reset : Value → Action σ Unit) =
    acknowledge "reset" "Unable to reset message visibility to zero" .changeVisibility := rfl

/-- All that the lookup of a message's origin can do. -/
inductive OriginEnds (m : Message Value) (w : World σ) : EStateM.Result Fault (World σ) Value → Prop where
  | homeless (hd : m.destination.isNull = true) :
      OriginEnds m w (.error (.bus ⟨.invalidArgument, "Message has no destination", .none⟩) w)
  | elsewhere {context t : Text} (hd : m.destination.isNull = false)
      (ho : ∀ d q, m.destination = .shared d → w.store.object? d ≠ some (.queue q))
      (ht : (w.store.expanded m.destination).inWords = .ok t) :
      OriginEnds m w (.error (.bus ⟨.internal, context, .none⟩) w)
  /-- The destination is no queue, and cannot be put into words. -/
  | wordless {f : Fault} (hd : m.destination.isNull = false)
      (ho : ∀ d q, m.destination = .shared d → w.store.object? d ≠ some (.queue q))
      (ht : (w.store.expanded m.destination).inWords = .error f) : OriginEnds m w (.error f w)
  | queue {d : Ref} {q : Queue} {r : EStateM.Result Fault (World σ) Value} (hd : m.destination = .shared d)
      (hq : w.store.object? d = some (.queue q)) (hl : LookupEnds d (.queue q) w r) : OriginEnds m w r

theorem originEnds (m : Message Value) (w : World σ) : OriginEnds m w ((originOf m).run w) := by
  unfold originOf
  rw [run_bind_of_ok (run_find? _ _)]
  split
  · next d q hd hq =>
    rw [hd] at hq
    exact .queue hd hq (lookupEnds_queue d q w)
  · next hother =>
    cases hnull : m.destination.isNull with
    | true => exact .homeless hnull
    | false =>
      have hforeign : ∀ d q, m.destination = .shared d → w.store.object? d ≠ some (.queue q) := by
        intro d q hd hq
        refine hother d q hd ?_
        rw [hd]
        exact hq
      simp only [Bool.false_eq_true, if_false]
      rw [EStateM.run_bind, run_shown]
      cases ht : (w.store.expanded m.destination).inWords with
      | ok t => exact .elsewhere hnull hforeign ht
      | error f => exact .wordless hnull hforeign ht

/-- All that an acknowledgement can do. -/
inductive AcknowledgeEnds (make : Value → Value → Request) (x : Value) (w : World σ) :
    EStateM.Result Fault (World σ) Unit → Prop where
  /-- There is no message. -/
  | foreign (hx : ∀ ref m, x = .shared ref → w.store.object? ref ≠ some (.message m)) :
      AcknowledgeEnds make x w (.error .attribute w)
  | propertyless {ref : Ref} {m : Message Value} {f : Fault} (hx : x = .shared ref)
      (hm : w.store.object? ref = some (.message m)) (hr : m.receiptHandle = .error f) :
      AcknowledgeEnds make x w (.error f w)
  | unreceived {ref : Ref} {m : Message Value} {context : Text} (hx : x = .shared ref)
      (hm : w.store.object? ref = some (.message m)) (hr : m.receiptHandle = .ok .null) :
      AcknowledgeEnds make x w (.error (.bus ⟨.invalidState, context, .none⟩) w)
  | lost {ref : Ref} {m : Message Value} {receipt : Value} {f : Fault} {v : World σ} (hx : x = .shared ref)
      (hm : w.store.object? ref = some (.message m)) (hr : m.receiptHandle = .ok receipt)
      (hnull : receipt.isNull = false) (ho : OriginEnds m w (.error f v)) : AcknowledgeEnds make x w (.error f v)
  | refused {ref : Ref} {m : Message Value} {receipt url : Value} {context : Except Fault Text} {f : Fault}
      {v u : World σ}
      (hx : x = .shared ref) (hm : w.store.object? ref = some (.message m)) (hr : m.receiptHandle = .ok receipt)
      (hnull : receipt.isNull = false) (ho : OriginEnds m w (.ok url v))
      (hq : RequestEnds context (make url (v.store.expanded receipt)) v (.error f u))
      (hc : TellsOf [v.store.expanded m.messageId, v.store.expanded receipt] context) :
      AcknowledgeEnds make x w (.error f u)
  | done {ref : Ref} {m : Message Value} {receipt url answer : Value} {context : Except Fault Text}
      {v u : World σ}
      (hx : x = .shared ref) (hm : w.store.object? ref = some (.message m)) (hr : m.receiptHandle = .ok receipt)
      (hnull : receipt.isNull = false) (ho : OriginEnds m w (.ok url v))
      (hq : RequestEnds context (make url (v.store.expanded receipt)) v (.ok answer u)) :
      AcknowledgeEnds make x w (.ok () u)

omit [Service σ] in
theorem tellsOf_acknowledgeContext (attempt : Text) (id handle : Value) :
    TellsOf [id, handle] (acknowledgeContext attempt id.inWords handle.inWords) := by
  intro f hf
  obtain hid | ⟨_, -, hf⟩ := bind_eq_error.mp hf
  · exact ⟨id, by simp, hid⟩
  · obtain hhandle | ⟨_, -, hf⟩ := bind_eq_error.mp hf
    · exact ⟨handle, by simp, hhandle⟩
    · cases hf

theorem acknowledgeEnds (done attempt : Text) (make : Value → Value → Request) (x : Value)
    (w : World σ) : AcknowledgeEnds make x w ((acknowledge done attempt make x).run w) := by
  unfold acknowledge
  by_cases hx : ∃ ref m, x = .shared ref ∧ w.store.object? ref = some (.message m)
  · obtain ⟨ref, m, rfl, hm⟩ := hx
    rw [run_bind_of_ok (run_message hm)]
    dsimp only
    cases hr : m.receiptHandle with
    | error f =>
      have hreceipt : (receiptOf m done : Action σ Value).run w = .error f w := by simp [receiptOf, hr]
      rw [run_bind_of_error hreceipt]
      exact .propertyless rfl hm hr
    | ok receipt =>
      cases hnull : receipt.isNull with
      | true =>
        have hreceipt : ∃ words, (receiptOf m done : Action σ Value).run w =
            .error (.bus ⟨.invalidState, words, .none⟩) w := by simp [receiptOf, hr, hnull]
        obtain ⟨words, hreceipt⟩ := hreceipt
        rw [run_bind_of_error hreceipt]
        rw [Value.eq_null_of_isNull hnull] at hr
        exact .unreceived rfl hm hr
      | false =>
        have hreceipt : (receiptOf m done : Action σ Value).run w = .ok receipt w := by
          simp [receiptOf, hr, hnull]
        rw [run_bind_of_ok hreceipt, EStateM.run_bind]
        have ho := originEnds m w
        cases horigin : (originOf m).run w with
        | error f v =>
          rw [horigin] at ho
          exact .lost rfl hm hr hnull ho
        | ok url v =>
          rw [horigin] at ho
          dsimp only
          rw [run_bind_of_ok (run_expanded _ _), run_bind_of_ok (run_words _ _), EStateM.run_bind]
          have hq := requestEnds (acknowledgeContext attempt (v.store.expanded m.messageId).inWords
            (v.store.expanded receipt).inWords) (make url (v.store.expanded receipt)) v
          cases hrequest : (request (acknowledgeContext attempt (v.store.expanded m.messageId).inWords
              (v.store.expanded receipt).inWords) (make url (v.store.expanded receipt))).run v with
          | ok a u => exact .done rfl hm hr hnull ho (hrequest ▸ hq)
          | error f u => exact .refused rfl hm hr hnull ho (hrequest ▸ hq) (tellsOf_acknowledgeContext attempt _ _)
  · have hforeign : ∀ ref m, x = .shared ref → w.store.object? ref ≠ some (.message m) := by
      intro ref m href hm
      exact hx ⟨ref, m, href, hm⟩
    rw [run_bind_of_error (run_message_foreign hforeign)]
    exact .foreign hforeign

/-- A message with a receipt handle from a bound queue is acknowledged with one request. -/
theorem run_acknowledge (done attempt : Text) (make : Value → Value → Request) {ref d : Ref}
    {m : Message Value} {q : Queue} {u : World σ} {url handle : Text} (hm : u.store.object? ref = some (.message m))
    (hq : u.store.object? d = some (.queue q)) (hurl : q.url = .text url)
    (hhandle : m.receiptHandle = .ok (.text handle)) (hd : m.destination = .shared d) :
    (acknowledge done attempt make (.shared ref)).run u = (do
      let _ ← request (acknowledgeContext attempt (u.store.expanded m.messageId).inWords (.ok handle))
        (make (.text url) (.text handle)) : Action σ Unit).run u := by
  have hreceipt : (receiptOf m done : Action σ Value).run u = .ok (.text handle) u := by
    simp [receiptOf, hhandle, Value.isNull]
  have hexpanded : (expanded (.text handle) : Action σ Value).run u = .ok (.text handle) u := by
    simp [Store.expanded_text]
  have horigin : (originOf m : Action σ Value).run u = .ok (.text url) u := by
    rw [originOf, run_bind_of_ok (run_find? _ _), hd, Store.find?, hq]
    simp [urlOf, hurl, Value.isNull, Store.expanded_text]
  rw [acknowledge, run_bind_of_ok (run_message hm), run_bind_of_ok hreceipt, run_bind_of_ok horigin,
    run_bind_of_ok hexpanded, run_bind_of_ok (run_words _ _)]
  rfl

end MessageBus.Action
