import MessageBus.Proofs.Equality
import MessageBus.Proofs.Operations
import MessageBus.Proofs.PollTrace

/-!
# Handles are written once

A destination object is looked up once with success, and keeps the handle that it was given then. The history of
its handle is told by the calls that are made on its behalf (`HandleCourse`): as long as there is no handle each
call is a lookup, and once there is one each call carries it.

Every operation leaves the handles of all objects but its target alone and takes the handle of its target along
such a course (`Serves`). A history of operations does so by induction.
-/

namespace MessageBus

namespace Value

theorem eq_null_of_same_null {v : Value} (h : v.same .null = true) : v = .null := by
  cases v with
  | null => rfl
  | bool b => simp [same, sameNumber, toRat?] at h
  | int n => simp [same, sameNumber, toRat?] at h
  | float x => simp [same, sameNumber, toRat?] at h
  | _ => simp [same] at h

theorem eq_text_of_same_text {v : Value} {t : Text} (h : v.same (.text t) = true) : v = .text t := by
  cases v with
  | text u => simpa [same] using h
  | null => simp [same, isNull] at h
  | bool b => simp [same, sameNumber, toRat?] at h
  | int n => simp [same, sameNumber, toRat?] at h
  | float x => simp [same, sameNumber, toRat?] at h
  | _ => simp [same] at h

end Value

theorem Request.not_isLookup_of_handle {q : Request} {h : Value} (hq : q.handle? = some h) : ¬ q.IsLookup := by
  cases q <;> simp [handle?, IsLookup, handleKey?] at hq ⊢

namespace Call

/-- A lookup that is answered is answered with a text for the handle. -/
def Sound (c : Call) : Prop :=
  ∀ key answer, c.request.handleKey? = some key → c.outcome = .ok answer → ∃ t, answer.item key = .ok (.text t)

/-- The call is a lookup that was answered. -/
def finds (c : Call) : Bool := c.request.handleKey?.isSome && c.outcome.isOk

/-- The call is a lookup that failed. -/
def Denies (c : Call) : Prop := c.request.IsLookup ∧ ∃ failure, c.outcome = .error failure

end Call

/-- How the handle of a destination object goes from one value to another with the calls that are made on behalf
of the object. -/
inductive HandleCourse : Value → List Call → Value → Prop where
  | done (h : Value) : HandleCourse h [] h
  | denied {q : Request} {failure : Failure} {cs : List Call} {h' : Value} (hq : q.IsLookup)
      (rest : HandleCourse .null cs h') : HandleCourse .null (⟨q, .error failure⟩ :: cs) h'
  | found {q : Request} {key t : Text} {answer : Value} {cs : List Call} {h' : Value}
      (hq : q.handleKey? = some key) (ha : answer.item key = .ok (.text t))
      (rest : HandleCourse (.text t) cs h') : HandleCourse .null (⟨q, .ok answer⟩ :: cs) h'
  | used {h : Value} {c : Call} {s : Store} {cs : List Call} {h' : Value} (hh : h.isNull = false)
      (hc : c.request.handle? = some (s.expanded h)) (rest : HandleCourse h cs h') : HandleCourse h (c :: cs) h'
  /-- The object is bound to a handle, which is the one that it has if it has one. -/
  | given {h v : Value} {cs : List Call} {h' : Value} (hv : h.isNull = true ∨ h.same v = true)
      (rest : HandleCourse v cs h') : HandleCourse h cs h'

namespace HandleCourse

variable {h h' h'' : Value} {cs cs' : List Call}

theorem trans (hc : HandleCourse h cs h') (hc' : HandleCourse h' cs' h'') : HandleCourse h (cs ++ cs') h'' := by
  induction hc with
  | done => exact hc'
  | denied hq _ ih => exact .denied hq (ih hc')
  | found hq ha _ ih => exact .found hq ha (ih hc')
  | used hh hc _ ih => exact .used hh hc (ih hc')
  | given hv _ ih => exact .given hv (ih hc')

/-- Calls that carry the handle leave it as it is. -/
theorem of_carried {s : Store} (hh : h.isNull = false)
    (hcs : ∀ c ∈ cs, c.request.handle? = some (s.expanded h)) : HandleCourse h cs h := by
  induction cs with
  | nil => exact .done h
  | cons c cs ih => exact .used hh (hcs c List.mem_cons_self) (ih fun c' hc' => hcs c' (List.mem_cons_of_mem _ hc'))

theorem isNull (hc : HandleCourse h cs h') (hh : h.isNull = false) : h'.isNull = false := by
  induction hc with
  | done => exact hh
  | denied => cases hh
  | found => cases hh
  | used _ _ _ ih => exact ih hh
  | @given h v cs h' hv _ ih =>
    apply ih
    rcases hv with hnull | hsame
    · rw [hh] at hnull
      cases hnull
    · cases hv : v.isNull with
      | false => rfl
      | true =>
        rw [Value.eq_null_of_isNull hv] at hsame
        rw [Value.eq_null_of_same_null hsame] at hh
        cases hh

/-- A text once bound stays as it is. -/
theorem eq_of_text {t : Text} (hc : HandleCourse h cs h') (ht : h = .text t) : h' = .text t := by
  induction hc with
  | done => exact ht
  | denied => cases ht
  | found => cases ht
  | used _ _ _ ih => exact ih ht
  | given hv _ ih =>
    apply ih
    subst ht
    rcases hv with hnull | hsame
    · cases hnull
    · exact Value.eq_text_of_same hsame

/-- A handle that ends up as a text was that text from when it was bound. -/
theorem eq_of_ends_text {t : Text} (hc : HandleCourse h cs h') (hh : h.isNull = false) (ht : h' = .text t) :
    h = .text t := by
  induction hc with
  | done => exact ht
  | denied => cases hh
  | found => cases hh
  | used _ _ _ ih => exact ih hh ht
  | @given h v cs h' hv rest ih =>
    have hcourse : HandleCourse h [] v := .given hv (.done v)
    have hbound := ih (hcourse.isNull hh) ht
    rcases hv with hnull | hsame
    · rw [hh] at hnull
      cases hnull
    · rw [hbound] at hsame
      exact Value.eq_text_of_same_text hsame

/-- No lookup is made for what is bound. -/
theorem not_isLookup (hc : HandleCourse h cs h') (hh : h.isNull = false) : ∀ c ∈ cs, ¬ c.request.IsLookup := by
  induction hc with
  | done => simp
  | denied => cases hh
  | found => cases hh
  | used _ hc _ ih =>
    intro c hmem
    rcases List.mem_cons.mp hmem with rfl | hmem
    · exact Request.not_isLookup_of_handle hc
    · exact ih hh c hmem
  | given hv _ ih =>
    have hcourse := HandleCourse.given hv (.done _)
    exact ih (hcourse.isNull hh)

/-- At most one lookup succeeds. -/
theorem finds_le_one (hc : HandleCourse h cs h') : (cs.filter Call.finds).length ≤ 1 := by
  have hnone {h : Value} {cs : List Call} {h' : Value} (hc : HandleCourse h cs h') (hh : h.isNull = false) :
      cs.filter Call.finds = [] := by
    rw [List.filter_eq_nil_iff]
    intro c hmem hfinds
    apply hc.not_isLookup hh c hmem
    rw [Call.finds, Bool.and_eq_true] at hfinds
    exact hfinds.1
  induction hc with
  | done => simp
  | denied hq _ ih => simpa [List.filter_cons, Call.finds, Except.isOk, Except.toBool] using ih
  | found hq ha rest ih =>
    rw [List.filter_cons, hnone rest rfl]
    split <;> simp
  | @used _ c _ _ _ hh hc rest ih =>
    have hfalse : c.finds = false := by
      have hlookup := Request.not_isLookup_of_handle hc
      simp only [Request.IsLookup, Bool.not_eq_true] at hlookup
      simp [Call.finds, hlookup]
    rw [List.filter_cons, hfalse]
    exact ih
  | given _ _ ih => exact ih

/-- Each call but a lookup carries the handle. -/
theorem carried (hc : HandleCourse h cs h') :
    ∀ c ∈ cs, ¬ c.request.IsLookup → h'.isNull = false ∧ ∀ t, h' = .text t → c.request.handle? = some (.text t) := by
  induction hc with
  | done => simp
  | denied hq _ ih =>
    intro c hmem hc
    rcases List.mem_cons.mp hmem with rfl | hmem
    · exact absurd hq hc
    · exact ih c hmem hc
  | found hq ha _ ih =>
    intro c hmem hc
    rcases List.mem_cons.mp hmem with rfl | hmem
    · refine absurd ?_ hc
      rw [Request.IsLookup, hq]
      rfl
    · exact ih c hmem hc
  | used hh hc rest ih =>
    intro c hmem hlookup
    rcases List.mem_cons.mp hmem with rfl | hmem
    · refine ⟨rest.isNull hh, ?_⟩
      intro t ht
      rw [hc, rest.eq_of_ends_text hh ht, Store.expanded_text]
    · exact ih c hmem hlookup
  | given _ _ ih => exact ih

end HandleCourse

namespace Action

/-! ## Steps that leave the handles alone -/

section steps

variable {σ : Type}

/-- All handles are still what they were. -/
def KeepsHandles (w v : World σ) : Prop := ∀ ref h, w.handle? ref = some h → v.handle? ref = some h

theorem KeepsHandles.of_store {w v : World σ} (h : v.store = w.store) : KeepsHandles w v := by
  intro ref handle hw
  rw [World.handle?_congr h]
  exact hw

theorem KeepsHandles.trans {w v u : World σ} (h : KeepsHandles w v) (h' : KeepsHandles v u) : KeepsHandles w u :=
  fun ref handle hw => h' ref handle (h ref handle hw)

theorem KeepsHandles.put_message {w : World σ} {ref : Ref} {m : Message Value}
    (hm : w.store.object? ref = some (.message m)) (m' : Message Value) :
    KeepsHandles w (w.put ref (.message m')) := by
  intro other handle hw
  rw [World.handle?_put_message hm]
  exact hw

theorem KeepsHandles.holding (w : World σ) (o : Object) : KeepsHandles w (w.holding o) := by
  intro ref handle hw
  rcases World.object_of_handle hw with ⟨o', ho, hh⟩
  have hadded : (w.holding o).store.object? ref = some o' := Store.object?_add_of_some ho o
  rw [World.handle?_of_object hadded, hh]

/-- Calls that all carry one handle, and leave all handles alone. -/
structure Uses (handle : Value) (w : World σ) (cs : List Call) (v : World σ) : Prop where
  makes : Makes w cs v
  keeps : KeepsHandles w v
  carried : ∀ c ∈ cs, c.request.handle? = some handle

namespace Uses

variable {handle : Value} {w v u : World σ} {cs cs' : List Call}

theorem quiet (handle : Value) (hmakes : Makes w [] v) (hkeeps : KeepsHandles w v) : Uses handle w [] v :=
  ⟨hmakes, hkeeps, by simp⟩

theorem refl (handle : Value) (w : World σ) : Uses handle w [] w := quiet handle (.refl w) (.of_store rfl)

theorem note (handle : Value) (w : World σ) (level : Level) (logger : Logger) (line : Except Fault Text) :
    Uses handle w [] (w.note level logger line) :=
  quiet handle (.note ..) (.of_store rfl)

theorem log (handle : Value) (w : World σ) (level : Level) (logger : Logger) (t : Text) :
    Uses handle w [] (w.record (.log level logger t)) :=
  quiet handle (.log ..) (.of_store rfl)

theorem trans (h : Uses handle w cs v) (h' : Uses handle v cs' u) : Uses handle w (cs ++ cs') u := by
  refine ⟨h.makes.trans h'.makes, h.keeps.trans h'.keeps, ?_⟩
  intro c hc
  rcases List.mem_append.mp hc with hc | hc
  · exact h.carried c hc
  · exact h'.carried c hc

theorem not_denies (h : Uses handle w cs v) : ∀ c ∈ cs, ¬ c.Denies :=
  fun c hc hdenies => Request.not_isLookup_of_handle (h.carried c hc) hdenies.1

theorem after [Service σ] (w : World σ) {q : Request} (hq : q.handle? = some handle) :
    Uses handle w [⟨q, (w.reply q).outcome⟩] (w.after q) := by
  refine ⟨.after w q, .of_store rfl, ?_⟩
  intro c hc
  rw [List.mem_singleton.mp hc]
  exact hq

end Uses

theorem Told.uses (handle : Value) {w v : World σ} {es : List Entry} (h : Told w es v) : Uses handle w [] v := by
  cases h with
  | nothing => exact .refl handle w
  | line => exact .log handle ..

/-- A message that is addressed to a topic may get its ID, and that is all. -/
theorem uses_addressed (handle : Value) {o : Object} {ref : Ref} {m m' : Message Value} {v u : World σ}
    (hm : v.store.object? ref = some (.message m)) (h : addressed o ref m v = (m', u)) : Uses handle v [] u := by
  refine .quiet handle (makes_addressed h) ?_
  rcases addressed_cases h with ⟨-, rfl⟩ | ⟨-, rfl⟩
  · exact .of_store rfl
  · exact KeepsHandles.trans (.of_store rfl) (.put_message (w := v.numbered) hm _)

theorem uses_handOver (handle queue : Value) (a : Option Value) (u : World σ) :
    Uses handle u [] (left ((handOver queue a).run u)) := by
  obtain ⟨logs, htrace, hlogs⟩ := handOver_trace queue a u
  refine .quiet handle (.of_logs htrace hlogs) ?_
  have hheeded (id body : Value) : KeepsHandles u ((arrived u id).heeded body) :=
    .of_store (World.store_heeded (arrived u id) body)
  have hends := handOverEnds queue a u
  generalize (handOver queue a).run u = r at hends
  cases hends with
  | nothing => exact .of_store rfl
  | nameless hid => exact .of_store rfl
  | bodiless hid hbody => exact .of_store rfl
  | unmade hid hbody hm => exact hheeded _ _
  | handed hid hbody hm => exact (hheeded _ _).trans (.holding _ _)

end steps

variable {σ : Type} [Service σ] {c : Connector} {url : Value}

theorem RequestEnds.uses {context : Except Fault Text} {q : Request} {w : World σ}
    {r : EStateM.Result Fault (World σ) Value} {handle : Value} (h : RequestEnds context q w r)
    (hq : q.handle? = some handle) :
    Uses handle w [⟨q, (w.reply q).outcome⟩] (left r) := by
  refine ⟨h.makes, .of_store h.store, ?_⟩
  intro c hc
  rw [List.mem_singleton.mp hc]
  exact hq

theorem Round.uses {w v : World σ} {es : List Entry} (h : Round c url w es v) : ∃ cs, Uses url w cs v := by
  have hpoll : (pollOf c url).handle? = some url := rfl
  cases h with
  | stopped hw hv => exact ⟨_, hv.uses url⟩
  | polled hw hv => exact ⟨_, (Uses.after w hpoll).trans (hv.uses url)⟩
  | @released handle _ _ hw hstop hv =>
    have hrelease : (Request.changeVisibility url handle).handle? = some url := rfl
    exact ⟨_, ((Uses.after w hpoll).trans (.after _ hrelease)).trans (hv.uses url)⟩

theorem Rounds.uses {w v : World σ} {es : List Entry} (h : Rounds c url w es v) : ∃ cs, Uses url w cs v := by
  induction h with
  | last h => exact h.uses
  | cut h hms =>
    obtain ⟨cs, hcs⟩ := h.uses
    exact ⟨_, hcs.trans (.quiet url (.sleep ..) (.of_store rfl))⟩
  | again h hms _ ih =>
    obtain ⟨cs, hcs⟩ := h.uses
    obtain ⟨cs', hcs'⟩ := ih
    exact ⟨_, (hcs.trans (.quiet url (.slept ..) (.of_store rfl))).trans hcs'⟩

/-! ## What an operation does to the handles -/

/-- Calls on behalf of a target: the handles of all other objects stay as they are, that of the target goes along
a course of the calls, and a lookup that fails is the end and leaves the target unbound. -/
structure Serves (target : Option Ref) (w : World σ) (cs : List Call) (f : Option Fault) (v : World σ) : Prop where
  makes : Makes w cs v
  others : ∀ ref h, target ≠ some ref → w.handle? ref = some h → v.handle? ref = some h
  own : ∀ ref h, target = some ref → w.handle? ref = some h → (∀ c ∈ cs, c.Sound) →
    ∃ h', v.handle? ref = some h' ∧ HandleCourse h cs h'
  denied : ∀ c ∈ cs, c.Denies → f.isSome = true ∧ ∀ ref, target = some ref → v.handle? ref = some .null

namespace Serves

variable {target : Option Ref} {w v u : World σ} {cs cs' : List Call} {f : Option Fault}

omit [Service σ] in
theorem quiet (target : Option Ref) (f : Option Fault) (h : Uses .null w [] v) : Serves target w [] f v :=
  ⟨h.makes, fun ref handle _ hw => h.keeps ref handle hw,
    fun ref handle _ hw _ => ⟨handle, h.keeps ref handle hw, .done handle⟩, by simp⟩

omit [Service σ] in
theorem behind (h : Uses .null w [] v) (hs : Serves target v cs f u) : Serves target w cs f u where
  makes := by
    have hmakes := h.makes.trans hs.makes
    rwa [List.nil_append] at hmakes
  others ref handle hother hw := hs.others ref handle hother (h.keeps ref handle hw)
  own ref handle htarget hw := hs.own ref handle htarget (h.keeps ref handle hw)
  denied := hs.denied

omit [Service σ] in
theorem trans (hs : Serves target w cs none v) (hs' : Serves target v cs' f u) :
    Serves target w (cs ++ cs') f u where
  makes := hs.makes.trans hs'.makes
  others ref handle hother hw := hs'.others ref handle hother (hs.others ref handle hother hw)
  own ref handle htarget hw hsound := by
    obtain ⟨h, hv, hcourse⟩ := hs.own ref handle htarget hw fun c hc => hsound c (List.mem_append_left _ hc)
    obtain ⟨h', hu, hcourse'⟩ := hs'.own ref h htarget hv fun c hc => hsound c (List.mem_append_right _ hc)
    exact ⟨h', hu, hcourse.trans hcourse'⟩
  denied c hc hdenies := by
    rcases List.mem_append.mp hc with hc | hc
    · have hnone := (hs.denied c hc hdenies).1
      cases hnone
    · exact hs'.denied c hc hdenies

end Serves

/-- A destination that is not found is left unbound. -/
theorem LookupEnds.serves_error {d : Ref} {o : Object} {w v : World σ} {f : Fault}
    {r : EStateM.Result Fault (World σ) Value} (hr : r = .error f v) (h : LookupEnds d o w r)
    (ho : w.store.object? d = some o) : ∃ cs, Serves (some d) w cs (some f) v := by
  have hlookup {q : Request} {key : Text} (hq : Unbound o w.store q key) : q.IsLookup := by
    rw [Request.IsLookup, hq.key]
    rfl
  have hnull {q : Request} {key : Text} (hq : Unbound o w.store q key) {ref : Ref} (href : some d = some ref) :
      w.handle? ref = some .null := by
    cases href
    rw [World.handle?_of_object ho, hq.handle]
  cases h with
  | known => cases hr
  | found => cases hr
  | @malformed q key answer _ hq hanswer hh =>
    cases hr
    refine ⟨_, .after w q, fun ref handle _ hw => hw, ?_, ?_⟩
    · intro ref handle _ _ hsound
      obtain ⟨t, ht⟩ := hsound _ (List.mem_singleton.mpr rfl) key answer hq.key hanswer
      rw [hh] at ht
      cases ht
    · rintro c hc ⟨_, failure, hfailure⟩
      rw [List.mem_singleton.mp hc, hanswer] at hfailure
      cases hfailure
  | @failed q key context _ _ hq hrequest =>
    cases hr
    have hkeeps : KeepsHandles w v := .of_store hrequest.store
    obtain ⟨failure, hfailure⟩ : ∃ failure, (w.reply q).outcome = .error failure := by
      cases hrequest with
      | failed ho he => exact ⟨_, ho⟩
      | untold ho he => exact ⟨_, ho⟩
    refine ⟨_, hrequest.makes, fun ref handle _ hw => hkeeps ref handle hw, ?_, ?_⟩
    · intro ref handle href hw _
      have hunbound := hnull hq href
      rw [hw] at hunbound
      cases hunbound
      rw [hfailure]
      exact ⟨.null, hkeeps ref _ hw, .denied (hlookup hq) (.done .null)⟩
    · intro _ _ _
      exact ⟨rfl, fun ref href => hkeeps ref _ (hnull hq href)⟩

/-- What is found is bound, and what is done with its handle then carries it. -/
theorem LookupEnds.serves_ok {d : Ref} {o : Object} {w v u : World σ} {handle : Value} {cs : List Call}
    {f : Option Fault} {r : EStateM.Result Fault (World σ) Value} (hr : r = .ok handle v) (h : LookupEnds d o w r)
    (ho : w.store.object? d = some o) (hu : Uses handle v cs u) : ∃ cs', Serves (some d) w cs' f u := by
  cases h with
  | @known bound hh hbound =>
    cases hr
    refine ⟨cs, hu.makes, fun ref handle _ hw => hu.keeps ref handle hw, ?_, ?_⟩
    · intro ref handle href hw _
      refine ⟨handle, hu.keeps ref handle hw, ?_⟩
      cases href
      rw [World.handle?_of_object ho, hh] at hw
      cases hw
      exact .of_carried hbound hu.carried
    · intro c hc hdenies
      exact absurd hdenies (hu.not_denies c hc)
  | @found q key line answer _ hq hanswer hh =>
    cases hr
    have hfound : Makes w [⟨q, (w.reply q).outcome⟩]
        (((w.after q).put d (o.withHandle handle)).note .debug .resolver line) :=
      (Makes.after w q).before (.put_note (w.after q) d (o.withHandle handle) .debug .resolver line)
    refine ⟨_, hfound.trans hu.makes, ?_, ?_, ?_⟩
    · intro ref handle' hother hw
      refine hu.keeps ref handle' ?_
      have hother : d ≠ ref := fun h => hother (congrArg some h)
      exact (World.handle?_put_other (w.after q) _ hother).trans hw
    · intro ref handle' href hw hsound
      cases href
      obtain ⟨t, ht⟩ := hsound _ (List.mem_append_left _ (List.mem_singleton.mpr rfl)) key answer hq.key hanswer
      rw [hh] at ht
      cases ht
      rw [World.handle?_of_object ho, hq.handle] at hw
      cases hw
      refine ⟨.text t, ?_, ?_⟩
      · refine hu.keeps d _ ?_
        exact World.handle?_put_withHandle (w := w.after q) ho hq.handle (.text t)
      · rw [hanswer]
        refine .found hq.key hh (.of_carried (s := w.store) rfl ?_)
        rw [Store.expanded_text]
        exact hu.carried
    · intro c hc hdenies
      rcases List.mem_append.mp hc with hc | hc
      · obtain ⟨_, failure, hfailure⟩ := hdenies
        rw [List.mem_singleton.mp hc, hanswer] at hfailure
        cases hfailure
      · exact absurd hdenies (hu.not_denies c hc)
  | malformed => cases hr
  | failed => cases hr

/-! ## What is done on behalf of a destination -/

/-- What is done on behalf of a target: no call at all, or the lookup of the target and then calls that carry the
handle that was found. -/
inductive OnBehalf {α : Type} (target : Option Ref) (w : World σ) : EStateM.Result Fault (World σ) α → Prop where
  | idle {r : EStateM.Result Fault (World σ) α} (hr : Uses .null w [] (left r)) : OnBehalf target w r
  | unfound {d : Ref} {o : Object} {f : Fault} {u v : World σ} (ht : target = some d) (hu : Uses .null w [] u)
      (ho : u.store.object? d = some o) (hl : LookupEnds d o u (.error f v)) : OnBehalf target w (.error f v)
  | used {d : Ref} {o : Object} {handle : Value} {u v : World σ} {cs : List Call}
      {r : EStateM.Result Fault (World σ) α} (ht : target = some d) (hu : Uses .null w [] u)
      (ho : u.store.object? d = some o) (hl : LookupEnds d o u (.ok handle v)) (hr : Uses handle v cs (left r)) :
      OnBehalf target w r

namespace OnBehalf

variable {α : Type} {target : Option Ref} {w : World σ} {r : EStateM.Result Fault (World σ) α}

theorem serves (h : OnBehalf target w r) : ∃ cs, Serves target w cs (fault? r) (left r) := by
  cases h with
  | idle hr => exact ⟨_, .quiet _ _ hr⟩
  | unfound ht hu ho hl =>
    obtain ⟨cs, hserves⟩ := hl.serves_error rfl ho
    exact ⟨cs, ht ▸ hserves.behind hu⟩
  | used ht hu ho hl hr =>
    obtain ⟨cs, hserves⟩ := hl.serves_ok rfl ho hr
    exact ⟨cs, ht ▸ hserves.behind hu⟩

/-- All that is done on behalf of a destination that has a text for its handle carries that text. -/
theorem uses {d : Ref} {t : Text} (h : OnBehalf (some d) w r) (hw : w.handle? d = some (.text t)) :
    ∃ cs, Uses (.text t) w cs (left r) := by
  have hbound {o : Object} {u : World σ} {ends : EStateM.Result Fault (World σ) Value} (hu : Uses .null w [] u)
      (ho : u.store.object? d = some o) (hl : LookupEnds d o u ends) : ends = .ok (.text t) u := by
    have hhandle := hu.keeps d _ hw
    rw [World.handle?_of_object ho] at hhandle
    have hends := hl.of_bound hhandle rfl
    rwa [Store.expanded_text] at hends
  cases h with
  | idle hr => exact ⟨_, .quiet _ hr.makes hr.keeps⟩
  | unfound ht hu ho hl =>
    cases ht
    have hends := hbound hu ho hl
    cases hends
  | used ht hu ho hl hr =>
    cases ht
    have hends := hbound hu ho hl
    cases hends
    have hquiet : Uses (.text t) w [] _ := .quiet _ hu.makes hu.keeps
    exact ⟨_, hquiet.trans hr⟩

end OnBehalf

end Action

end MessageBus
