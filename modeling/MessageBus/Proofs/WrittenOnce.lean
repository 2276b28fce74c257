import MessageBus.Proofs.Handles

/-!
# Histories of operations

Every operation serves its target (`Operation.serves`), so over a history of operations the handle of each
destination object takes a course of the calls that are made on its behalf (`Operation.handleCourse`). What the
bus promises of handles is read off these two (`WrittenOnce`).
-/

namespace MessageBus

namespace Action

variable {σ : Type} [Service σ]

/-! ## Sends -/

/-- Behind its lookup a send makes at most its one call, which carries the handle that was found. -/
theorem HandingEnds.onBehalf {d ref : Ref} {o : Object} {m : Message Value} {w u : World σ}
    {r : EStateM.Result Fault (World σ) Unit} (h : HandingEnds d o ref m u r) (hu : Uses .null w [] u)
    (ho : u.store.object? d = some o) (hm : u.store.object? ref = some (.message m)) (hother : d ≠ ref) :
    OnBehalf (some d) w r := by
  have hmessage {h : Value} {v : World σ} (hl : LookupEnds d o u (.ok h v)) :
      v.store.object? ref = some (.message m) := (hl.frame hother).trans hm
  cases h with
  | unfound hl => exact .unfound rfl hu ho hl
  | @unwritten handle v u m' e hl haddressed hwire =>
    have hquiet := uses_addressed handle (hmessage hl) haddressed
    exact .used rfl hu ho hl (hquiet.trans (.log ..))
  | @refused handle v u u' m' wire context f hl haddressed hwire hr =>
    have hquiet := uses_addressed handle (hmessage hl) haddressed
    exact .used rfl hu ho hl (hquiet.trans (hr.uses (Object.handle?_carriage _ _ o)))
  | @unnumbered q handle answer v wire f hq hl hwire hanswer hid =>
    have hsent : (Request.sendMessage handle wire).handle? = some handle := rfl
    exact .used rfl hu ho hl (.after v hsent)
  | @unnamed q handle answer id v wire f hq hl hwire hanswer hid hwords =>
    have hsent : (Request.sendMessage handle wire).handle? = some handle := rfl
    exact .used rfl hu ho hl (.after v hsent)
  | @posted q handle answer id v wire hq hl hwire hanswer hid htakes =>
    have hsent : (Request.sendMessage handle wire).handle? = some handle := rfl
    have hv := hmessage hl
    have hput : Uses handle (v.after (.sendMessage handle wire)) []
        ((v.after (.sendMessage handle wire)).put ref (.message (m.identified id.shown))) :=
      .quiet handle (.of_trace rfl) (.put_message (w := v.after (.sendMessage handle wire)) hv _)
    exact .used rfl hu ho hl (((Uses.after v hsent).trans hput).trans (.note ..))
  | @published t handle answer v u m' wire line ht hl haddressed hwire hanswer =>
    have hquiet := uses_addressed handle (hmessage hl) haddressed
    have hsent : (Request.publish handle wire).handle? = some handle := rfl
    exact .used rfl hu ho hl ((hquiet.trans (.after u hsent)).trans (.note ..))

theorem send_onBehalf (destination x : Value) (w : World σ) :
    OnBehalf destination.ref? w ((send destination x).run w) := by
  have hends := sendEnds destination x w
  generalize (send destination x).run w = r at hends
  have hput {ref : Ref} {m m' : Message Value} (hm : w.store.object? ref = some (.message m)) :
      Uses .null w [] (w.put ref (.message m')) := .quiet .null (.of_trace rfl) (.put_message hm m')
  cases hends with
  | nowhere hd => exact .idle (.refl .null w)
  | unstamped hd hs => exact .idle (.refl .null w)
  | misdirected hd hx hm hs ho => exact .idle (hput hm)
  | @directed d ref o h m m' _ hd ho hh hx hm hs hr =>
    subst hd
    exact hr.onBehalf (hput hm) (World.destination_put ho hh hm m') (Store.object?_replace_self hm)
      (Store.ne_of_handle ho hh hm)

/-- The messages of a list are sent on behalf of one destination. The induction is on the list; a send that fails
is the last one. -/
theorem sendAll_serves (destination : Value) (xs : List Value) (w : World σ) :
    ∃ cs, Serves destination.ref? w cs (fault? ((sendAll destination xs).run w))
      (left ((sendAll destination xs).run w)) := by
  induction xs generalizing w with
  | nil => exact ⟨_, .quiet _ _ (.refl .null w)⟩
  | cons x xs ih =>
    obtain ⟨cs, hsend⟩ := (send_onBehalf destination x w).serves
    rw [sendAll]
    cases hr : (send destination x).run w with
    | error f v =>
      rw [run_bind_of_error hr]
      rw [hr] at hsend
      exact ⟨cs, hsend⟩
    | ok _ v =>
      rw [run_bind_of_ok hr]
      rw [hr] at hsend
      obtain ⟨cs', hrest⟩ := ih v
      exact ⟨_, hsend.trans hrest⟩

/-! ## What is resolved, and what is done with it -/

theorem ResolvingEnds.onBehalf_error {α : Type} {x : Value} {w v : World σ} {f : Fault}
    {r : EStateM.Result Fault (World σ) Value} (hr : r = .error f v) (h : ResolvingEnds x w r) :
    OnBehalf x.ref? w (.error f v : EStateM.Result Fault (World σ) α) := by
  cases h with
  | absent hx =>
    cases hr
    exact .idle (.refl .null w)
  | stray hx =>
    cases hr
    exact .idle (.refl .null w)
  | looked hx ho hh hl =>
    subst hx hr
    exact .unfound rfl (.refl .null w) ho hl

theorem ResolvingEnds.onBehalf_ok {α : Type} {x : Value} {w v : World σ} {handle : Value} {cs : List Call}
    {ends : EStateM.Result Fault (World σ) α} {r : EStateM.Result Fault (World σ) Value} (hr : r = .ok handle v)
    (h : ResolvingEnds x w r) (hu : Uses handle v cs (left ends)) : OnBehalf x.ref? w ends := by
  cases h with
  | absent hx => cases hr
  | stray hx => cases hr
  | looked hx ho hh hl =>
    subst hx hr
    exact .used rfl (.refl .null w) ho hl hu

theorem ResolvingEnds.onBehalf {x : Value} {w : World σ} {r : EStateM.Result Fault (World σ) Value}
    (h : ResolvingEnds x w r) : OnBehalf x.ref? w r := by
  cases hr : r with
  | error f v => exact h.onBehalf_error hr
  | ok handle v => exact h.onBehalf_ok hr (.refl handle v)

theorem receive_onBehalf (c : Connector) (queue : Value) (timeout : Int) (w : World σ) :
    OnBehalf queue.ref? w ((receive c queue timeout).run w) := by
  have hends := resolvingEnds_queue queue w
  cases hresolve : (resolveQueue queue).run w with
  | error f v =>
    rw [run_receive_of_unresolved c timeout hresolve]
    exact hends.onBehalf_error hresolve
  | ok url v =>
    rw [run_receive_of_resolved c timeout hresolve]
    obtain ⟨_, hcourse⟩ := awaits c queue url timeout w.elapsed v
    obtain ⟨_, hrounds⟩ := hcourse.rounds
    obtain ⟨cs, hloop⟩ := hrounds.uses
    cases hr : (awaiting c queue url timeout w.elapsed).run v with
    | error f u =>
      rw [hr] at hloop
      rw [run_bind_of_error hr]
      exact hends.onBehalf_ok hresolve hloop
    | ok a u =>
      rw [hr] at hloop
      rw [run_bind_of_ok hr]
      exact hends.onBehalf_ok hresolve (hloop.trans (uses_handOver url queue a u))

theorem AcknowledgeEnds.onBehalf {make : Value → Value → Request} {x : Value} {w : World σ}
    {r : EStateM.Result Fault (World σ) Unit} (h : AcknowledgeEnds make x w r)
    (hmake : ∀ url receipt, (make url receipt).handle? = some url) :
    OnBehalf ((w.store.find? x).bind Object.origin?) w r := by
  have htarget {ref d : Ref} {m : Message Value} (hx : x = .shared ref)
      (hm : w.store.object? ref = some (.message m)) (hd : m.destination = .shared d) :
      (w.store.find? x).bind Object.origin? = some d := by
    rw [hx, Store.find?, hm, Option.bind_some, Object.origin?, hd, Value.ref?]
  have hfound {ref : Ref} {m : Message Value} {url : Value} {v : World σ} {cs : List Call}
      (ho : OriginEnds m w (.ok url v)) (hu : Uses url v cs (left r)) (hx : x = .shared ref)
      (hm : w.store.object? ref = some (.message m)) : OnBehalf ((w.store.find? x).bind Object.origin?) w r := by
    cases ho with
    | queue hd hq hl => exact .used (htarget hx hm hd) (.refl .null w) hq hl hu
  cases h with
  | foreign hx => exact .idle (.refl .null w)
  | propertyless hx hm hr => exact .idle (.refl .null w)
  | unreceived hx hm hr => exact .idle (.refl .null w)
  | @lost ref m receipt f v hx hm hr hnull ho =>
    cases ho with
    | homeless hd => exact .idle (.refl .null w)
    | elsewhere hd ho => exact .idle (.refl .null w)
    | wordless hd ho ht => exact .idle (.refl .null w)
    | queue hd hq hl => exact .unfound (htarget hx hm hd) (.refl .null w) hq hl
  | @refused ref m receipt url context f v u hx hm hr hnull ho hrequest =>
    exact hfound ho (hrequest.uses (hmake url _)) hx hm
  | @done ref m receipt url answer context v u hx hm hr hnull ho hrequest =>
    exact hfound ho (hrequest.uses (hmake url _)) hx hm

theorem DeletionEnds.onBehalf {x : Value} {w : World σ} {r : EStateM.Result Fault (World σ) Unit}
    (h : DeletionEnds x w r) : OnBehalf x.ref? w r := by
  have hends := resolvingEnds_queue x w
  have hdelete (url : Value) : (Request.deleteQueue url).handle? = some url := rfl
  cases h with
  | unfound hl => exact hends.onBehalf_error hl
  | refused hl hr => exact hends.onBehalf_ok hl (hr.uses (hdelete _))
  | @deleted url answer context line v u hl hr =>
    have hrequest : Uses url v _ u := hr.uses (hdelete url)
    exact hends.onBehalf_ok hl (hrequest.trans (.note ..))

/-! ## The other operations -/

omit [Service σ] in
theorem bindHandle_serves (x handle : Value) (w : World σ) :
    ∃ cs, Serves x.ref? w cs (fault? ((bindHandle x handle).run w)) (left ((bindHandle x handle).run w)) := by
  have hends := bindEnds x handle w
  generalize (bindHandle x handle).run w = r at hends
  cases hends with
  | foreign hx => exact ⟨_, .quiet _ _ (.refl .null w)⟩
  | refused hx ho hh hbound hother he => exact ⟨_, .quiet _ _ (.refl .null w)⟩
  | wordless hx ho hh hbound hother hv hf => exact ⟨_, .quiet _ _ (.refl .null w)⟩
  | @given d o h hx ho hh hsame =>
    subst hx
    refine ⟨[], .of_trace rfl, ?_, ?_, by simp⟩
    · intro ref h' hother hw
      have hother : d ≠ ref := fun h => hother (congrArg some h)
      exact (World.handle?_put_other w _ hother).trans hw
    · intro ref h' href hw _
      cases href
      rw [World.handle?_of_object ho, hh] at hw
      cases hw
      exact ⟨handle, World.handle?_put_withHandle ho hh handle, .given hsame (.done handle)⟩

omit [Service σ] in
/-- Another handle is refused, unless what the refusal tells of cannot be put into words. -/
theorem bindHandle_refused {ref : Ref} {h handle : Value} {w : World σ} (hw : w.handle? ref = some h)
    (hbound : h.isNull = false) (hother : h.same handle = false) :
    ∃ f, (bindHandle (.shared ref) handle).run w = .error f w ∧
      ((∃ e : BusError, e.kind = .internal ∧ f = .bus e) ∨
        ∃ o, w.store.object? ref = some o ∧ ∃ x ∈ o.refusing handle, (w.store.expanded x).inWords = .error f) := by
  have hends := bindEnds (.shared ref) handle w
  generalize (bindHandle (.shared ref) handle).run w = r at hends
  cases hends with
  | foreign hx => exact absurd hw (hx ref h rfl)
  | @refused d o h e hx ho hh hbound hother he => exact ⟨.bus e, rfl, .inl ⟨e, he, rfl⟩⟩
  | @wordless d o h x f hx ho hh hbound hother hv hf =>
    cases hx
    exact ⟨f, rfl, .inr ⟨o, ho, x, hv, hf⟩⟩
  | @given d o h hx ho hh hsame =>
    cases hx
    rw [World.handle?_of_object ho, hh] at hw
    cases hw
    rcases hsame with hnull | hsame
    · rw [hbound] at hnull
      cases hnull
    · rw [hother] at hsame
      cases hsame

omit [Service σ] in
theorem bindHandle_internal {ref : Ref} {o : Object} {h handle : Value} {w : World σ}
    (ho : w.store.object? ref = some o) (hh : o.handle? = some h) (hother : h.same handle = false)
    (htexts : ∀ x ∈ o.refusing handle, ∃ t, x = .text t) :
    ∃ e : BusError, e.kind = .internal ∧ (bindHandle (.shared ref) handle).run w = .error (.bus e) w := by
  obtain ⟨t, rfl⟩ := htexts h (Object.mem_refusing hh handle)
  obtain ⟨f, hrun, ⟨e, he, rfl⟩ | ⟨o', ho', x, hx, hf⟩⟩ :=
    bindHandle_refused ((World.handle?_of_object ho).trans hh) rfl hother
  · exact ⟨e, he, hrun⟩
  · obtain rfl := Option.some.inj (ho.symm.trans ho')
    obtain ⟨u, rfl⟩ := htexts x hx
    rw [Store.expanded_text, Value.inWords_text] at hf
    cases hf

/-- A request that looks nothing up, made on behalf of nothing. -/
theorem RequestEnds.serves {context : Except Fault Text} {q : Request} {w : World σ}
    {r : EStateM.Result Fault (World σ) Value} (h : RequestEnds context q w r) (hq : ¬ q.IsLookup) (f : Option Fault) :
    ∃ cs, Serves none w cs f (left r) := by
  refine ⟨_, h.makes, fun ref handle _ hw => KeepsHandles.of_store h.store ref handle hw, ?_, ?_⟩
  · intro ref handle href
    cases href
  · intro c hc hdenies
    rw [List.mem_singleton.mp hc] at hdenies
    exact absurd hdenies.1 hq

theorem not_isLookup_listQueues (named : Option Value) : ¬ (Request.listQueues named).IsLookup := by
  simp [Request.IsLookup, Request.handleKey?]

theorem ListingEnds.serves {start : Value} {w : World σ} {r : EStateM.Result Fault (World σ) (List Queue)}
    (h : ListingEnds start w r) : ∃ cs, Serves none w cs (fault? r) (left r) := by
  cases h with
  | refused hr => exact hr.serves (not_isLookup_listQueues _) _
  | malformed hr hq => exact hr.serves (not_isLookup_listQueues _) _
  | listed hr hq => exact hr.serves (not_isLookup_listQueues _) _

theorem test_serves (w : World σ) : ∃ cs, Serves none w cs (fault? (test.run w)) (left (test.run w)) := by
  have hends := requestEnds (.ok "Connection test failed") (.listQueues none) w
  rw [run_test]
  cases hr : (request (.ok "Connection test failed") (.listQueues none)).run w with
  | error f v =>
    rw [hr] at hends
    exact hends.serves (not_isLookup_listQueues none) _
  | ok answer v =>
    rw [hr] at hends
    exact hends.serves (not_isLookup_listQueues none) _

omit [Service σ] in
/-- The lookup of a new object is made on behalf of nothing that was there before. -/
theorem Serves.of_new {w v : World σ} {o : Object} {cs : List Call} {f : Option Fault}
    (hs : Serves (some w.store.objects.length) (w.holding o) cs f v) : Serves none w cs f v := by
  have hquiet : Uses .null w [] (w.holding o) := .quiet .null (.of_trace rfl) (.holding w o)
  have hbehind := hs.behind hquiet
  refine ⟨hbehind.makes, ?_, by simp, fun c hc hdenies => ⟨(hs.denied c hc hdenies).1, by simp⟩⟩
  intro ref handle _ hw
  refine hbehind.others ref handle ?_ hw
  intro href
  injection href with href
  obtain ⟨o', ho, _⟩ := World.object_of_handle hw
  have hlt : ref < w.store.objects.length := (List.getElem?_eq_some_iff.mp ho).1
  exact Nat.ne_of_lt hlt href.symm

theorem CreationEnds.serves {name : Value} {w : World σ} {r : EStateM.Result Fault (World σ) Ref}
    (h : CreationEnds name w r) : ∃ cs, Serves none w cs (fault? r) (left r) := by
  cases h with
  | invalid hq => exact ⟨_, .quiet _ _ (.refl .null w)⟩
  | @unfound q f v hq hl =>
    obtain ⟨cs, hserves⟩ := hl.serves_error rfl (w.object?_holding (.queue q))
    exact ⟨cs, hserves.of_new⟩
  | @created q url v hq hl =>
    obtain ⟨cs, hserves⟩ := hl.serves_ok rfl (w.object?_holding (.queue q)) (.refl url v)
    exact ⟨cs, hserves.of_new⟩

end Action

namespace Operation

open MessageBus.Action

variable {σ : Type} [Service σ]

/-- Every operation serves its target. -/
theorem serves (op : Operation) (w : World σ) :
    Serves (op.target w) w (op.made w) (fault? (op.action.run w)) (op.after w) := by
  have hserves : ∃ cs, Serves (op.target w) w cs (fault? (op.action.run w)) (left (op.action.run w)) := by
    cases op with
    | resolve x =>
      simp only [action, fault?_discard, left_discard]
      exact (resolvingEnds x w).onBehalf.serves
    | resolveQueue x =>
      simp only [action, fault?_discard, left_discard]
      exact (resolvingEnds_queue x w).onBehalf.serves
    | resolveTopic x =>
      simp only [action, fault?_discard, left_discard]
      exact (resolvingEnds_topic x w).onBehalf.serves
    | bindHandle x handle => exact bindHandle_serves x handle w
    | send destination x => exact (send_onBehalf destination x w).serves
    | sendAll destination xs => exact sendAll_serves destination xs w
    | receive c queue timeout =>
      simp only [action, fault?_discard, left_discard]
      exact (receive_onBehalf c queue timeout w).serves
    | delete x =>
      simp only [action, delete_eq]
      exact ((acknowledgeEnds ..).onBehalf fun _ _ => rfl).serves
    | reset x =>
      simp only [action, reset_eq]
      exact ((acknowledgeEnds ..).onBehalf fun _ _ => rfl).serves
    | deleteQueue x => exact (deletionEnds x w).onBehalf.serves
    | test => exact test_serves w
    | createQueue name =>
      simp only [action, fault?_discard, left_discard]
      exact (creationEnds name w).serves
    | listQueues start =>
      simp only [action, fault?_discard, left_discard]
      exact (listingEnds start w).serves
  obtain ⟨cs, hserves⟩ := hserves
  have hmade : op.made w = cs := made_eq hserves.makes
  rw [hmade]
  exact hserves

/-- The handle of a destination object takes a course of the calls that a history of operations makes on its
behalf. The induction is on the history: an operation leaves the handle alone, or serves the object. -/
theorem handleCourse {ref : Ref} {h : Value} (ops : List Operation) (w : World σ) (hw : w.handle? ref = some h)
    (hsound : ∀ c ∈ madeFor ref w ops, c.Sound) :
    ∃ h', (afterAll w ops).handle? ref = some h' ∧ HandleCourse h (madeFor ref w ops) h' := by
  induction ops generalizing w h with
  | nil => exact ⟨h, hw, .done h⟩
  | cons op ops ih =>
    have hserves := op.serves w
    rw [madeFor] at hsound ⊢
    rw [afterAll_cons]
    by_cases htarget : op.target w = some ref
    · rw [if_pos htarget] at hsound ⊢
      obtain ⟨h₁, hafter, hcourse⟩ := hserves.own ref h htarget hw fun c hc => hsound c (List.mem_append_left _ hc)
      obtain ⟨h', hfinal, hrest⟩ := ih (op.after w) hafter fun c hc => hsound c (List.mem_append_right _ hc)
      exact ⟨h', hfinal, hcourse.trans hrest⟩
    · rw [if_neg htarget] at hsound ⊢
      exact ih (op.after w) (hserves.others ref h htarget hw) hsound

/-- What the bus promises of the handle of a destination object over a history of operations. -/
structure WrittenOnce (ref : Ref) (w : World σ) (ops : List Operation) : Prop where
  /-- A handle that the object has at some moment it has from then on. -/
  kept : ∀ before rest h, ops = before ++ rest → (afterAll w before).handle? ref = some h → h.isNull = false →
    ∃ h', (afterAll w ops).handle? ref = some h' ∧ h'.isNull = false ∧ ∀ t, h = .text t → h' = .text t
  /-- Binding the object to another handle than it has is refused, and changes nothing. The error is an internal one
  that tells of its name and of both handles, as long as these can be put into words. -/
  refused : ∀ before rest h v, ops = before ++ .bindHandle (.shared ref) v :: rest →
    (afterAll w before).handle? ref = some h → h.isNull = false → h.same v = false →
    ∃ f, (bindHandle (.shared ref) v).action.run (afterAll w before) = .error f (afterAll w before) ∧
      ((∃ e : BusError, e.kind = .internal ∧ f = .bus e) ∨
        ∃ o, (afterAll w before).store.object? ref = some o ∧
          ∃ x ∈ o.refusing v, ((afterAll w before).store.expanded x).inWords = .error f)
  /-- So it is an internal one if the object is named by a text, and both handles are texts. -/
  internal : ∀ before rest o h v, ops = before ++ .bindHandle (.shared ref) v :: rest →
    (afterAll w before).store.object? ref = some o → o.handle? = some h → h.same v = false →
    (∀ x ∈ o.refusing v, ∃ t, x = .text t) → ∃ e : BusError, e.kind = .internal ∧
      (bindHandle (.shared ref) v).action.run (afterAll w before) = .error (.bus e) (afterAll w before)
  /-- An operation whose lookup fails ends in an error and leaves the object without a handle. -/
  denied : ∀ before op rest, ops = before ++ op :: rest → op.target (afterAll w before) = some ref →
    (∃ c ∈ op.made (afterAll w before), c.Denies) →
    (fault? (op.action.run (afterAll w before))).isSome = true ∧
      (op.after (afterAll w before)).handle? ref = some .null
  /-- At most one lookup succeeds. -/
  once : ((madeFor ref w ops).filter Call.finds).length ≤ 1
  /-- No lookup is made for the object once it has a handle. -/
  settled : ∀ before rest h, ops = before ++ rest → (afterAll w before).handle? ref = some h → h.isNull = false →
    ∀ c ∈ madeFor ref (afterAll w before) rest, ¬ c.request.IsLookup
  /-- Every other call on behalf of the object carries its handle. -/
  carried : ∀ before op rest, ops = before ++ op :: rest → op.target (afterAll w before) = some ref →
    ∀ c ∈ op.made (afterAll w before), ¬ c.request.IsLookup →
      ∃ h, (op.after (afterAll w before)).handle? ref = some h ∧ h.isNull = false ∧
        ∀ t, h = .text t → c.request.handle? = some (.text t)

/-- Handles are written once. Nothing is assumed of the services but that a lookup that succeeds is answered with
a text for the handle. -/
theorem handle_written_once {ref : Ref} {h : Value} (ops : List Operation) (w : World σ)
    (hw : w.handle? ref = some h) (hsound : ∀ c ∈ madeFor ref w ops, c.Sound) : WrittenOnce ref w ops := by
  obtain ⟨h', hfinal, hcourse⟩ := handleCourse ops w hw hsound
  -- what is behind some moment of a sound history is a sound history
  have hfrom {before rest : List Operation} (hops : ops = before ++ rest) :
      (∃ h₁, (afterAll w before).handle? ref = some h₁) ∧ ∀ c ∈ madeFor ref (afterAll w before) rest, c.Sound := by
    subst hops
    rw [madeFor_append] at hsound
    obtain ⟨h₁, hbefore, _⟩ := handleCourse before w hw fun c hc => hsound c (List.mem_append_left _ hc)
    exact ⟨⟨h₁, hbefore⟩, fun c hc => hsound c (List.mem_append_right _ hc)⟩
  constructor
  case kept =>
    intro before rest h₁ hops hbefore hbound
    obtain ⟨_, hrest⟩ := hfrom hops
    obtain ⟨h₂, hlast, hcourse⟩ := handleCourse rest (afterAll w before) hbefore hrest
    rw [hops, afterAll_append]
    exact ⟨h₂, hlast, hcourse.isNull hbound, fun t ht => hcourse.eq_of_text ht⟩
  case refused =>
    intro before rest h₁ v _ hbefore hbound hother
    exact Action.bindHandle_refused hbefore hbound hother
  case internal =>
    intro before rest o h₁ v _ ho hh hother htexts
    exact Action.bindHandle_internal ho hh hother htexts
  case denied =>
    rintro before op rest - htarget ⟨c, hc, hdenies⟩
    obtain ⟨hfault, hnull⟩ := (op.serves (afterAll w before)).denied c hc hdenies
    exact ⟨hfault, hnull ref htarget⟩
  case once => exact hcourse.finds_le_one
  case settled =>
    intro before rest h₁ hops hbefore hbound
    obtain ⟨_, hrest⟩ := hfrom hops
    obtain ⟨h₂, _, hcourse⟩ := handleCourse rest (afterAll w before) hbefore hrest
    exact hcourse.not_isLookup hbound
  case carried =>
    intro before op rest hops htarget c hc hlookup
    obtain ⟨⟨h₁, hbefore⟩, hrest⟩ := hfrom hops
    rw [madeFor, if_pos htarget] at hrest
    obtain ⟨h₂, hafter, hcourse⟩ := (op.serves (afterAll w before)).own ref h₁ htarget hbefore fun c hc =>
      hrest c (List.mem_append_left _ hc)
    exact ⟨h₂, hafter, hcourse.carried c hc hlookup⟩

/-- A world with a queue without a URL, in which the first lookup fails. -/
def hesitant : World Script :=
  { started := 0, elapsed := 0, timers := [], running := true,
    service := ⟨[("create_queue", [⟨0, none, some (.error .noRegion)⟩])], 0, [], 0⟩,
    store := ⟨[.queue (Queue.named "orders")]⟩, serial := 0, patience := 0, trace := [] }

/-- A queue is looked up until that succeeds, then deleted under the URL that was found, and takes no other. -/
theorem bound_at_second_lookup :
    madeFor 0 hesitant [.resolve (.shared 0), .deleteQueue (.shared 0), .bindHandle (.shared 0) (.text "other")] =
        [⟨.createQueue (.text "orders"), .error .noRegion⟩,
          ⟨.createQueue (.text "orders"),
            .ok (Value.ofFields [("QueueUrl", .text (Script.queueUrl "orders"))])⟩,
          ⟨.deleteQueue (.text (Script.queueUrl "orders")), .ok (.dict [])⟩] ∧
      WrittenOnce 0 hesitant
        [.resolve (.shared 0), .deleteQueue (.shared 0), .bindHandle (.shared 0) (.text "other")] := by
  have hmade : madeFor 0 hesitant
      [.resolve (.shared 0), .deleteQueue (.shared 0), .bindHandle (.shared 0) (.text "other")] =
        [⟨.createQueue (.text "orders"), .error .noRegion⟩,
          ⟨.createQueue (.text "orders"),
            .ok (Value.ofFields [("QueueUrl", .text (Script.queueUrl "orders"))])⟩,
          ⟨.deleteQueue (.text (Script.queueUrl "orders")), .ok (.dict [])⟩] := by
    with_unfolding_all rfl
  refine ⟨hmade, handle_written_once _ hesitant (h := .null) rfl ?_⟩
  rw [hmade]
  intro c hc
  simp only [List.mem_cons, List.not_mem_nil, or_false] at hc
  rcases hc with rfl | rfl | rfl
  · intro key answer _ ho
    cases ho
  · intro key answer hkey ho
    cases hkey
    cases ho
    exact ⟨Script.queueUrl "orders", rfl⟩
  · intro key answer hkey
    cases hkey

end Operation

end MessageBus
