import MessageBus.Proofs.Listing
import MessageBus.Proofs.Surfacing

/-!
# How operations end

What each operation of a connector reports of its calls, and from that how it ends (`Operation.Surfacing`): with a
result or with an error of the bus, and with an error that tells of a failure exactly when its last call failed. An
interval that is too long to be slept, and an argument that cannot be put into words, end it in a fault of their own.
-/

namespace MessageBus

namespace World

variable {σ : Type} {w : World σ} {x : Value}

/-- What is taken for a queue has words: its name has if it is one, and else it has itself. -/
def Tells (w : World σ) (x : Value) : Prop :=
  match w.store.find? x with
  | some (.queue q) => (Object.queue q).Named
  | _ => (w.store.expanded x).Tellable

/-- All that is said of a message that is acknowledged has words. -/
def TellsMessage (w : World σ) (x : Value) : Prop :=
  ∀ ref m, x = .shared ref → w.store.object? ref = some (.message m) →
    w.Tells m.destination ∧ m.messageId.Worded ∧ ∀ receipt, m.receiptHandle = .ok receipt → receipt.Worded

theorem Tells.named {d : Ref} {q : Queue} (h : w.Tells (.shared d)) (hq : w.store.object? d = some (.queue q)) :
    (Object.queue q).Named := by
  rw [Tells, Store.find?, hq] at h
  exact h

theorem Tells.tellable (h : w.Tells x) (hx : ∀ d q, x = .shared d → w.store.object? d ≠ some (.queue q)) :
    (w.store.expanded x).Tellable := by
  unfold Tells at h
  split at h
  · next q hq =>
    cases x with
    | shared d => exact absurd hq (hx d q rfl)
    | _ => cases hq
  · exact h

/-- What is no queue and has no words leaves nothing to tell of. -/
theorem not_tells {f : Fault} (hx : ∀ d q, x = .shared d → w.store.object? d ≠ some (.queue q))
    (hf : (w.store.expanded x).inWords = .error f) : ¬ w.Tells x := fun h => by
  cases (h.tellable hx).symm.trans hf

end World

theorem Value.Worded.expanded {v : Value} (h : v.Worded) (s : Store) : s.expanded v = v :=
  s.expand_unshared h.unshared _

namespace Action

variable {σ : Type} [Service σ] {k : Conduct} {c : Connector} {queue url : Value} {timeout : Int} {start : Rat}

/-! ## Polling -/

omit [Service σ] in
/-- An answer to a poll that is in order hands out a written record, or none. -/
theorem handedOut_answered {wait answer : Value} (h : (Request.receiveMessage url wait).Answered answer) :
    ∃ a, handedOut answer = .ok a ∧ ∀ record, a = some record → Written record := by
  obtain ⟨records, hrecords, hwritten⟩ := h
  rw [handedOut, hrecords]
  cases records with
  | nil => exact ⟨none, rfl, by simp⟩
  | cons record records =>
    have hrecord := hwritten record List.mem_cons_self
    refine ⟨some record, ?_, ?_⟩
    · simp [bind, Except.bind, Value.first?, Value.truthy, hrecord.whole.isNull]
    · intro other hother
      cases hother
      exact hrecord

theorem pollOf_not_release : ¬ (k.polls ∧ (pollOf c url).IsRelease) := by
  rintro ⟨_, _, _, h⟩
  cases h

theorem release_reports (hk : k.polls) (w : World σ) (handle : Value) :
    Reports k w [⟨.changeVisibility url handle, (w.reply (.changeVisibility url handle)).outcome⟩] none
      (w.after (.changeVisibility url handle)) :=
  ⟨.after w _, fun _ => .completed (List.forall_mem_singleton.mpr (.inr ⟨hk, _, _, rfl⟩))⟩

/-- A round reports its calls in order, and what it gives is a written record. -/
theorem RoundEnds.reports {w : World σ} {r : EStateM.Result Fault (World σ) (Option Value)}
    (h : RoundEnds c queue url w r) (hk : k.polls) (hqueue : k.worded → (w.store.expanded queue).Tellable) :
    ∃ cs, Reports k w cs (fault? r) (left r) ∧
      ∀ record v, r = .ok (some record) v → (∀ call ∈ cs, call.Regular) → Written record := by
  have hfailed {f : Fault} {v : World σ} (hends : RequestEnds (pollContext w queue) (pollOf c url) w (.error f v)) :
      Reports k w [⟨pollOf c url, (w.reply (pollOf c url)).outcome⟩] (some f) v :=
    hends.reports_error (.map _ _) (fun hworded => List.forall_mem_singleton.mpr (hqueue hworded)) pollOf_not_release
  have hhanded {answer : Value} {cs : List Call} (ho : (w.reply (pollOf c url)).outcome = .ok answer)
      (hregular : ∀ call ∈ ⟨pollOf c url, (w.reply (pollOf c url)).outcome⟩ :: cs, call.Regular) :
      ∃ a, handedOut answer = .ok a ∧ ∀ record, a = some record → Written record := by
    have hcall := hregular _ List.mem_cons_self
    rw [Call.Regular, ho] at hcall
    exact handedOut_answered hcall
  cases h with
  | stopped hw => exact ⟨_, .quiet k (.log ..), by simp⟩
  | failed hw ho he => exact ⟨_, hfailed (.failed ho he), by simp⟩
  | untold hw ho he => exact ⟨_, hfailed (.untold ho he), by simp⟩
  | malformed hw ho ha =>
    refine ⟨_, ⟨.after w _, ?_⟩, by simp⟩
    intro hregular
    obtain ⟨_, hhanded, _⟩ := hhanded ho hregular
    rw [ha] at hhanded
    cases hhanded
  | empty hw ho ha => exact ⟨_, reports_answered k ho, by simp⟩
  | kept hw ho ha hv =>
    refine ⟨_, reports_answered k ho, ?_⟩
    intro record v hr hregular
    cases hr
    obtain ⟨_, hhanded, hwritten⟩ := hhanded ho hregular
    rw [ha] at hhanded
    cases hhanded
    exact hwritten _ rfl
  | @released answer record handle a hw ho ha hv hh hr =>
    exact ⟨_, (reports_answered k ho).trans (release_reports hk _ handle), by simp⟩
  | @hidden answer record handle failure words hw ho ha hv hh hr ht =>
    exact ⟨_, (reports_answered k ho).trans (.before (release_reports hk _ handle) (.log ..)), by simp⟩
  | @lost answer record handle failure f hw ho ha hv hh hr ht =>
    -- a failure in order has a text, so that of a release can be logged
    refine ⟨_, ⟨(Makes.after w (pollOf c url)).trans (.after _ (.changeVisibility url handle)), ?_⟩, by simp⟩
    intro hregular
    have hcall := hregular _ (List.mem_append_right _ (List.mem_singleton.mpr rfl))
    rw [Call.Regular, hr] at hcall
    obtain ⟨⟨words, hwords⟩, _⟩ : failure.Regular := hcall
    rw [ht] at hwords
    cases hwords
  | handleless hw ho ha hv hh =>
    refine ⟨_, ⟨.after w _, ?_⟩, by simp⟩
    intro hregular
    obtain ⟨_, hhanded, hwritten⟩ := hhanded ho hregular
    rw [ha] at hhanded
    cases hhanded
    obtain ⟨_, handle, _, _, hhandle, _⟩ := hwritten _ rfl
    rw [hh] at hhandle
    cases hhandle

theorem RoundEnds.tooLong {w : World σ} {r : EStateM.Result Fault (World σ) (Option Value)}
    (h : RoundEnds c queue url w r) : (left r).tooLong = w.tooLong := by
  cases h <;> rfl

/-- The loop reports its calls in order, as long as it sleeps for some time between two rounds. The induction is
on its course. -/
theorem Awaits.reports {ms : Rat} (hms : c.interval.toRat? = some ms) (hpositive : 1 ≤ ms) {w : World σ}
    {es : List Entry} {r : EStateM.Result Fault (World σ) (Option Value)}
    (h : Awaits c queue url timeout start w es r) (hk : k.polls)
    (hinterval : (∃ f, c.interval.pause w.tooLong = .error f) → k.overlong)
    (hqueue : k.worded → (w.store.expanded queue).Tellable) :
    ∃ cs, Reports k w cs (fault? r) (left r) ∧
      ∀ record v, r = .ok (some record) v → (∀ call ∈ cs, call.Regular) → Written record := by
  have hround {w : World σ} {r : EStateM.Result Fault (World σ) (Option Value)}
      (hr : (round c queue url).run w = r) (hqueue : k.worded → (w.store.expanded queue).Tellable) :
      (∃ cs, Reports k w cs (fault? r) (left r) ∧
        ∀ record v, r = .ok (some record) v → (∀ call ∈ cs, call.Regular) → Written record) ∧
        (left r).tooLong = w.tooLong ∧ (left r).store = w.store := by
    have hends := roundEnds c queue url w
    rw [hr] at hends
    exact ⟨hends.reports hk hqueue, hends.tooLong, hends.frame.2⟩
  have hnonneg : 0 ≤ ms := Rat.le_trans (by decide) hpositive
  induction h with
  | fault hr hes => exact (hround hr hqueue).1
  | record hr hes => exact (hround hr hqueue).1
  | late hr hes hd => exact (hround hr hqueue).1
  | @halt w v u es begun f hr hes hd hs hb hbegun =>
    obtain ⟨⟨cs, hreports, _⟩, htooLong, -⟩ := hround hr hqueue
    have hstopped : Reports k v [] (some f) u := by
      obtain ⟨hpause, rfl⟩ | ⟨ms', -, hpatience, rfl, rfl⟩ := run_sleep_error hs
      · obtain ⟨message, rfl⟩ := Value.pause_eq_error hms hnonneg hpause
        exact .stopped (.refl _) (.overslept (hinterval ⟨_, htooLong ▸ hpause⟩))
      · exact .stopped (.sleep v ms') (.cut hk hpatience)
    exact ⟨_, hreports.trans hstopped, by simp⟩
  | @again w v es later ms' r hr hes hd hs rest ih =>
    obtain ⟨⟨cs, hreports, _⟩, htooLong, hstore⟩ := hround hr hqueue
    obtain ⟨cs', hlater, hwritten⟩ := ih (fun h => hinterval (htooLong ▸ h)) fun hworded => hstore ▸ hqueue hworded
    refine ⟨cs ++ cs', (hreports.before (.slept v ms')).trans hlater, ?_⟩
    intro record u hsome hregular
    exact hwritten record u hsome fun call hcall => hregular call (List.mem_append_right _ hcall)

theorem LookupEnds.tooLong {d : Ref} {o : Object} {w : World σ} {r : EStateM.Result Fault (World σ) Value}
    (h : LookupEnds d o w r) : (left r).tooLong = w.tooLong := by
  cases h with
  | failed hq hr => cases hr <;> rfl
  | _ => rfl

/-- Resolving a queue reports its call in order. A queue that was resolved has its words still. -/
theorem resolveQueue_reports {x : Value} {w : World σ} (hx : k.worded → w.Tells x) :
    ∃ cs, Reports k w cs (fault? ((resolveQueue x).run w)) (left ((resolveQueue x).run w)) ∧
      ∀ url v, (resolveQueue x).run w = .ok url v →
        v.tooLong = w.tooLong ∧ (k.worded → (v.store.expanded x).Tellable) := by
  have hends := resolveEnds x w
  generalize hr : (resolveQueue x).run w = r at hends
  cases hends with
  | absent hx => exact ⟨_, .stopped (.refl w) (.declined (by simp) (by simp)), nofun⟩
  | other hx ho ht => exact ⟨_, .stopped (.refl w) (.declined (by simp) (by simp)), nofun⟩
  | wordless hnull ho ht =>
    have hk : ¬ k.worded := fun hworded => World.not_tells ho ht (hx hworded)
    exact ⟨_, .stopped (.refl w) (.wordless hk (Value.wordless_of_inWords ht)), nofun⟩
  | @queue d q _ hd ho hu =>
    subst hd
    rw [run_resolveQueue ho] at hr
    subst hr
    have hl := lookupEnds_queue d q w
    have hnamed (hworded : k.worded) := (hx hworded).named ho
    obtain ⟨cs, hreports, -⟩ := hl.reports hnamed
    refine ⟨cs, hreports, fun url v hv => ?_⟩
    rw [hv] at hl
    refine ⟨hl.tooLong, fun hworded => ?_⟩
    rcases hl.kept ho with hq | hq
    · exact Store.tellable_named hq (hnamed hworded)
    · exact Store.tellable_named hq ((hnamed hworded).withHandle url)

theorem receive_reports {ms : Rat} (hms : c.interval.toRat? = some ms) (hpositive : 1 ≤ ms) {queue : Value}
    (timeout : Int) {w : World σ} (hk : k.polls) (hinterval : (∃ f, c.interval.pause w.tooLong = .error f) → k.overlong)
    (hqueue : k.worded → w.Tells queue) :
    ∃ cs, Reports k w cs (fault? ((receive c queue timeout).run w)) (left ((receive c queue timeout).run w)) := by
  obtain ⟨cs, hresolved, hfound⟩ := resolveQueue_reports hqueue
  cases hresolve : (resolveQueue queue).run w with
  | error f v =>
    rw [hresolve] at hresolved
    rw [run_receive_of_unresolved c timeout hresolve]
    exact ⟨cs, hresolved⟩
  | ok url v =>
    rw [hresolve] at hresolved
    rw [run_receive_of_resolved c timeout hresolve]
    obtain ⟨htooLong, htellable⟩ := hfound url v hresolve
    obtain ⟨_, hcourse⟩ := awaits c queue url timeout w.elapsed v
    obtain ⟨cs', hloop, hwritten⟩ :=
      hcourse.reports hms hpositive hk (fun h => hinterval (htooLong ▸ h)) htellable
    cases hr : (awaiting c queue url timeout w.elapsed).run v with
    | error f u =>
      rw [hr] at hloop
      rw [run_bind_of_error hr]
      exact ⟨_, hresolved.trans hloop⟩
    | ok a u =>
      rw [hr] at hloop hwritten
      rw [run_bind_of_ok hr]
      have hbehind := hresolved.trans hloop
      refine ⟨_, hbehind.makes.before (uses_handOver url queue a u).makes, ?_⟩
      intro hregular
      -- a written record always becomes a message, whatever its body says
      have hnone : fault? ((handOver queue a).run u) = none := by
        cases a with
        | none => rfl
        | some record =>
          have hrecord := hwritten record u rfl fun call hcall => hregular call (List.mem_append_right _ hcall)
          obtain ⟨m, hm⟩ := converted_of_whole queue hrecord.whole
          obtain ⟨id, handle, body, hid, _, hbody⟩ := hrecord
          rw [run_handOver hid hbody hm]
          rfl
      rw [hnone]
      have hquiet : Surfaces k (left ((handOver queue a).run u)).patience [] none := .completed (by simp)
      have hsurfaces := (hbehind.surfaces hregular).behind hquiet
      rwa [List.append_nil] at hsurfaces

/-! ## The other operations -/

theorem OriginEnds.reports {m : Message Value} {w : World σ} {r : EStateM.Result Fault (World σ) Value}
    (h : OriginEnds m w r) (hm : k.worded → w.Tells m.destination) : ∃ cs, Reports k w cs (fault? r) (left r) := by
  cases h with
  | homeless hd => exact ⟨_, .stopped (.refl w) (.declined (by simp) (by simp))⟩
  | elsewhere hd ho ht => exact ⟨_, .stopped (.refl w) (.declined (by simp) (by simp))⟩
  | wordless hd ho ht =>
    have hk : ¬ k.worded := fun hworded => World.not_tells ho ht (hm hworded)
    exact ⟨_, .stopped (.refl w) (.wordless hk (Value.wordless_of_inWords ht))⟩
  | queue hd hq hl =>
    rw [hd] at hm
    obtain ⟨cs, hreports, -⟩ := hl.reports fun hworded => (hm hworded).named hq
    exact ⟨cs, hreports⟩

theorem AcknowledgeEnds.reports {worded : Prop} {make : Value → Value → Request} {x : Value} {w : World σ}
    {r : EStateM.Result Fault (World σ) Unit} (h : AcknowledgeEnds make x w r) (hx : HasBag w x)
    (hk : worded → w.TellsMessage x) : ∃ cs, Reports (.still worded) w cs (fault? r) (left r) := by
  obtain ⟨ref, m, entries, rfl, hm, hentries⟩ := hx
  have horigin {r : EStateM.Result Fault (World σ) Value} (ho : OriginEnds m w r) :
      ∃ cs, Reports (.still worded) w cs (fault? r) (left r) := ho.reports fun hworded => (hk hworded ref m rfl hm).1
  cases h with
  | foreign hforeign => exact absurd hm (hforeign ref m rfl)
  | propertyless hx hm' hr =>
    cases hx
    rw [hm] at hm'
    cases hm'
    rw [Message.receiptHandle, Message.property, hentries] at hr
    cases hr
  | unreceived hx hm' hr => exact ⟨_, .stopped (.refl w) (.declined (by simp) (by simp))⟩
  | lost hx hm' hr hnull ho =>
    cases hx
    cases hm.symm.trans hm'
    exact horigin ho
  | @refused _ _ receipt url context f v u hx hm' hr hnull ho hq hc =>
    cases hx
    cases hm.symm.trans hm'
    obtain ⟨cs, hfound⟩ := horigin ho
    have htellable (hworded : worded) :
        ∀ x ∈ [v.store.expanded m.messageId, v.store.expanded receipt], x.Tellable := by
      obtain ⟨-, hid, hreceipt⟩ := hk hworded ref m rfl hm
      rw [hid.expanded, (hreceipt receipt hr).expanded]
      simp [hid.tellable, (hreceipt receipt hr).tellable]
    exact ⟨_, hfound.trans (hq.reports_error (k := .still worded) hc htellable (fun h => h.1))⟩
  | done hx hm' hr hnull ho hq =>
    cases hx
    cases hm.symm.trans hm'
    obtain ⟨cs, hfound⟩ := horigin ho
    exact ⟨_, hfound.trans (hq.reports_ok _)⟩

theorem DeletionEnds.reports {worded : Prop} {x : Value} {w : World σ} {r : EStateM.Result Fault (World σ) Unit}
    (h : DeletionEnds x w r) (hk : worded → w.Tells x) : ∃ cs, Reports (.still worded) w cs (fault? r) (left r) := by
  obtain ⟨cs, hresolved, hfound⟩ := resolveQueue_reports (k := .still worded) hk
  cases h with
  | unfound hl =>
    rw [hl] at hresolved
    exact ⟨cs, hresolved⟩
  | refused hl hr hc =>
    rw [hl] at hresolved
    have htellable (hworded : worded) := List.forall_mem_singleton.mpr ((hfound _ _ hl).2 hworded)
    exact ⟨_, hresolved.trans (hr.reports_error (k := .still worded) hc htellable (fun h => h.1))⟩
  | deleted hl hr =>
    rw [hl] at hresolved
    exact ⟨_, hresolved.trans (.before (hr.reports_ok _) (.note ..))⟩

omit [Service σ] in
theorem check_named (t : Text) : Queue.check (Value.ofFields [("name", .text t)]) = .ok (Queue.named t) := by
  with_unfolding_all rfl

theorem CreationEnds.reports (worded : Prop) {t : Text} {w : World σ} {r : EStateM.Result Fault (World σ) Ref}
    (h : CreationEnds (.text t) w r) : ∃ cs, Reports (.still worded) w cs (fault? r) (left r) := by
  have hlookup {q : Queue} {r : EStateM.Result Fault (World σ) Value}
      (hq : Queue.check (Value.ofFields [("name", .text t)]) = .ok q)
      (hl : LookupEnds w.store.objects.length (.queue q) (w.holding (.queue q)) r) :
      ∃ cs, Reports (.still worded) w cs (fault? r) (left r) := by
    rw [check_named] at hq
    cases hq
    obtain ⟨cs, hreports, -⟩ := hl.reports (k := .still worded) fun _ => Queue.named_worded ..
    have hadd : Makes w [] (w.holding (.queue (Queue.named t))) := .of_trace rfl
    exact ⟨cs, .behind hadd hreports⟩
  cases h with
  | invalid hq =>
    rw [check_named] at hq
    cases hq
  | unfound hq hl => exact hlookup hq hl
  | created hq hl => exact hlookup hq hl

theorem ListingEnds.reports {worded : Prop} {start : Value} {w : World σ}
    {r : EStateM.Result Fault (World σ) (List Queue)} (h : ListingEnds start w r)
    (hk : worded → (w.store.expanded start).Tellable) : ∃ cs, Reports (.still worded) w cs (fault? r) (left r) := by
  cases h with
  | refused hr hc =>
    exact ⟨_, hr.reports_error (k := .still worded) hc (fun hworded => List.forall_mem_singleton.mpr (hk hworded))
      (fun h => h.1)⟩
  | @malformed named context answer f v hr hq =>
    refine ⟨_, hr.makes, ?_⟩
    intro hregular
    have hcall := hregular _ (List.mem_singleton.mpr rfl)
    have hanswer : (w.reply (.listQueues named)).outcome = .ok answer := by
      cases hr with
      | answered ho => exact ho
    rw [Call.Regular, hanswer] at hcall
    obtain ⟨urls, hurls⟩ := hcall
    obtain ⟨_, hqueues, _⟩ := listed_texts hurls
    rw [hq] at hqueues
    cases hqueues
  | listed hr hq => exact ⟨_, hr.reports_ok _⟩

theorem test_reports (worded : Prop) (w : World σ) :
    ∃ cs, Reports (.still worded) w cs (fault? (test.run w)) (left (test.run w)) := by
  have hends := requestEnds (.ok "Connection test failed") (.listQueues none) w
  rw [run_test]
  cases hr : (request (.ok "Connection test failed") (.listQueues none)).run w with
  | error f v =>
    rw [hr] at hends
    exact ⟨_, hends.reports_error (k := .still worded) (.ok _) (by simp) (fun h => h.1)⟩
  | ok answer v =>
    rw [hr] at hends
    exact ⟨_, hends.reports_ok _⟩

end Action

namespace Operation

open MessageBus.Action

variable {σ : Type}

/-- An operation of a connector, called in order: a message is a message object with a dictionary for its
properties, a poll interval lasts a millisecond at least, and the name of a new queue is a text. -/
def Called (w : World σ) : Operation → Prop
  | .resolve _ | .resolveQueue _ | .resolveTopic _ | .bindHandle _ _ => False
  | .send _ x => HasBag w x
  | .sendAll _ xs => ∀ x ∈ xs, HasBag w x
  | .receive c _ _ => ∃ ms, c.interval.toRat? = some ms ∧ 1 ≤ ms
  | .delete x | .reset x => HasBag w x
  | .createQueue name => ∃ t, name = .text t
  | .deleteQueue _ | .test | .listQueues _ => True

def Polls : Operation → Prop
  | .receive _ _ _ => True
  | _ => False

def Overlong (w : World σ) : Operation → Prop
  | .receive c _ _ => ∃ f, c.interval.pause w.tooLong = .error f
  | _ => False

/-- All arguments of the operation that its errors tell of can be put into words. -/
def Worded (w : World σ) : Operation → Prop
  | .send destination _ | .sendAll destination _ => Directed w destination
  | .receive _ x _ | .deleteQueue x => w.Tells x
  | .delete x | .reset x => w.TellsMessage x
  | .listQueues start => (w.store.expanded start).Tellable
  | _ => True

def conduct (w : World σ) (op : Operation) : Conduct := ⟨op.Polls, op.Overlong w, op.Worded w⟩

variable [Service σ]

/-- Every operation that is called in order reports its calls in order. -/
theorem reports {op : Operation} {w : World σ} (h : op.Called w) :
    Reports (op.conduct w) w (op.made w) (fault? (op.action.run w)) (op.after w) := by
  have hreports : ∃ cs, Reports (op.conduct w) w cs (fault? (op.action.run w)) (left (op.action.run w)) := by
    cases op with
    | resolve x => cases h
    | resolveQueue x => cases h
    | resolveTopic x => cases h
    | bindHandle x handle => cases h
    | send destination x =>
      obtain ⟨⟨cs, hreports, -⟩, -⟩ := send_reports h id
      exact ⟨cs, hreports⟩
    | sendAll destination xs => exact sendAll_reports h id
    | receive c queue timeout =>
      obtain ⟨ms, hms, hpositive⟩ := h
      simp only [action, fault?_discard, left_discard]
      exact receive_reports hms hpositive timeout trivial id id
    | delete x =>
      simp only [action, delete_eq]
      exact (acknowledgeEnds ..).reports h id
    | reset x =>
      simp only [action, reset_eq]
      exact (acknowledgeEnds ..).reports h id
    | deleteQueue x => exact (deletionEnds x w).reports id
    | test => exact test_reports True w
    | createQueue name =>
      obtain ⟨t, rfl⟩ := h
      simp only [action, fault?_discard, left_discard]
      exact (creationEnds (.text t) w).reports True
    | listQueues start =>
      simp only [action, fault?_discard, left_discard]
      exact (listingEnds start w).reports id
  obtain ⟨cs, hreports⟩ := hreports
  have hmade : op.made w = cs := made_eq hreports.makes
  rw [hmade]
  exact hreports

/-- A failure that bears a security code among its listed errors only. -/
def expired : Failure :=
  .refused (Value.ofFields [("Error", Value.ofFields [("Code", .text "Throttling")]),
    ("Errors", .list [Value.ofFields [("Code", .text "ExpiredToken")]])]) "ReceiveMessage"

/-- A world with a queue without a URL, in which the first poll fails. -/
def expiring : World Script :=
  { started := 0, elapsed := 0, timers := [], running := true,
    service := ⟨[("receive_message", [⟨0, none, some (.error expired)⟩])], 0, [], 0⟩,
    store := ⟨[.queue (Queue.named "orders")]⟩, serial := 0, patience := 0, trace := [] }

/-- A list with too many others in it is no queue, and ends an operation that takes it for one in no error of the
bus. -/
theorem run_enclosed (w : World σ) :
    (deleteQueue (Value.enclosed Value.levelsInWords .null)).action.run w = .error .tooNested w := by
  have hexpanded : w.store.expanded (Value.enclosed Value.levelsInWords .null) =
      Value.enclosed Value.levelsInWords .null :=
    w.store.expand_unshared (fun _ => Value.replaceShared_enclosed rfl _) _
  have hresolved : (Action.resolveQueue (Value.enclosed Value.levelsInWords .null)).run w = .error .tooNested w := by
    have hends := resolveEnds (Value.enclosed Value.levelsInWords .null) w
    generalize (Action.resolveQueue (Value.enclosed Value.levelsInWords .null)).run w = r at hends ⊢
    cases hends with
    | absent hx => cases hx
    | queue hx ho hr => cases hx
    | other hx ho ht => cases (hexpanded ▸ ht).symm.trans (Value.inWords_enclosed .null)
    | wordless hx ho ht =>
      cases (hexpanded ▸ ht).symm.trans (Value.inWords_enclosed .null)
      rfl
  rw [action, Action.deleteQueue, run_bind_of_error hresolved]

/-- Not every operation ends with a result, an error of the bus or the end of all patience. -/
theorem enclosed_unsurfaced : ¬ ∀ (op : Operation) (w : World Script), op.Called w →
    (∀ c ∈ op.made w, c.Regular) → ∀ f, fault? (op.action.run w) = some f → (∃ e, f = .bus e) ∨ f = .impatient := by
  intro h
  have hrun := run_enclosed expiring
  have hmade : (deleteQueue (Value.enclosed Value.levelsInWords .null)).made expiring = [] := by
    refine made_eq ?_
    rw [after, hrun]
    exact .refl expiring
  have hregular : ∀ c ∈ (deleteQueue (Value.enclosed Value.levelsInWords .null)).made expiring, c.Regular := by
    rw [hmade]
    exact List.forall_mem_nil _
  have hfault : fault? ((deleteQueue (Value.enclosed Value.levelsInWords .null)).action.run expiring) =
      some .tooNested := by
    rw [hrun]
    rfl
  have hcalled : (deleteQueue (Value.enclosed Value.levelsInWords .null)).Called expiring := trivial
  obtain ⟨e, he⟩ | he := h _ expiring hcalled hregular _ hfault
  · cases he
  · cases he

/-- Nor does one that is to sleep for an interval of which there are no seconds. -/
theorem overslept_unsurfaced : ∃ message,
    fault? ((receive ⟨.int (Nat.pow (Nat.pow 10 200) 2), .null⟩ (.shared 0) (-1)).action.run
      { expiring with service := Script.empty }) = some (.overflow message) := by
  refine ⟨"integer division result too large for a float", ?_⟩
  with_unfolding_all rfl

end Operation

end MessageBus
