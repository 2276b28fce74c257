import MessageBus.Proofs.Failures
import MessageBus.Proofs.Handles

/-!
# Failures surface as errors of the bus

An operation that is called in order ends with a result or with an error of the bus, as long as the services
answer and fail in order. A call that fails is the last one, and the error tells the failure; only the release of
a record that arrived after a stop may fail in silence (`Surfaces`). An operation that was asked to tell of a value that
cannot be put into words, or to sleep for too long, may end in the fault of that instead (`Conduct.Halts`,
`Conduct.Tells`). Each step of an operation reports so (`Reports`), and steps that follow each other report together.
-/

namespace MessageBus

def Request.IsRelease (q : Request) : Prop := ∃ url handle, q = .changeVisibility url handle

/-- The call is answered, or releases a record in an operation that polls. -/
def Call.Passes (polls : Prop) (c : Call) : Prop := (∃ answer, c.outcome = .ok answer) ∨ (polls ∧ c.request.IsRelease)

/-- What the ends of an operation depend on: whether it polls, whether its sleeps are too long, and whether all that its
errors tell of can be put into words. -/
structure Conduct where
  polls : Prop
  overlong : Prop
  worded : Prop

namespace Conduct

/-- An operation that does not poll does not sleep, and releases nothing. -/
def still (worded : Prop) : Conduct := ⟨False, False, worded⟩

/-- The fault tells of a failure, or of a value without words. -/
def Tells (k : Conduct) (failure : Failure) (f : Fault) : Prop :=
  (∃ e, f = .bus e ∧ failure.Told e) ∨ (¬ k.worded ∧ f.Wordless)

/-- A fault in which an operation that leaves so much patience ends for no failed call: an error of the bus of its own,
the end of all patience for its sleeps, a sleep that is too long, or a value without words. -/
inductive Halts (k : Conduct) (patience : Nat) : Fault → Prop where
  | declined {e : BusError} (hs : e.kind ≠ .security) (ho : e.kind ≠ .operation) : Halts k patience (.bus e)
  | cut (hp : k.polls) (hpatience : patience = 0) : Halts k patience .impatient
  | overslept {message : Text} (hk : k.overlong) : Halts k patience (.overflow message)
  | wordless {f : Fault} (hk : ¬ k.worded) (hf : f.Wordless) : Halts k patience f

end Conduct

/-- How an operation that makes these calls and leaves so much patience ends: with a result, in a fault that has nothing
to do with the calls, or in one that tells of its last call why it failed. -/
inductive Surfaces (k : Conduct) (patience : Nat) : List Call → Option Fault → Prop where
  | completed {cs : List Call} (h : ∀ c ∈ cs, c.Passes k.polls) : Surfaces k patience cs none
  | stopped {cs : List Call} {f : Fault} (h : ∀ c ∈ cs, c.Passes k.polls) (hf : k.Halts patience f) :
      Surfaces k patience cs (some f)
  | failed {cs : List Call} {c : Call} {failure : Failure} {f : Fault} (h : ∀ c ∈ cs, c.Passes k.polls)
      (hc : c.outcome = .error failure) (hr : ¬ (k.polls ∧ c.request.IsRelease)) (hf : k.Tells failure f) :
      Surfaces k patience (cs ++ [c]) (some f)

namespace Surfaces

variable {k : Conduct} {n m : Nat} {cs cs' : List Call} {f : Option Fault}

theorem failed_alone {c : Call} {failure : Failure} {f : Fault} (hc : c.outcome = .error failure)
    (hr : ¬ (k.polls ∧ c.request.IsRelease)) (hf : k.Tells failure f) : Surfaces k n [c] (some f) := by
  have hnone : ∀ c ∈ ([] : List Call), c.Passes k.polls := by simp
  exact List.nil_append [c] ▸ Surfaces.failed hnone hc hr hf

theorem behind (h : Surfaces k n cs none) (h' : Surfaces k m cs' f) : Surfaces k m (cs ++ cs') f := by
  cases h with
  | completed hcs =>
    have happend {cs' : List Call} (hcs' : ∀ c ∈ cs', c.Passes k.polls) : ∀ c ∈ cs ++ cs', c.Passes k.polls :=
      List.forall_mem_append.mpr ⟨hcs, hcs'⟩
    cases h' with
    | completed hcs' => exact .completed (happend hcs')
    | stopped hcs' hf => exact .stopped (happend hcs') hf
    | failed hcs' hc hr hf =>
      rw [← List.append_assoc]
      exact .failed (happend hcs') hc hr hf

/-- What has words under some condition has them once the condition is met. -/
theorem of_worded {p : Prop} (h : Surfaces { k with worded := k.worded ∧ p } n cs f) (hp : p) :
    Surfaces k n cs f := by
  have hworded (hk : ¬ (k.worded ∧ p)) : ¬ k.worded := fun hworded => hk ⟨hworded, hp⟩
  cases h with
  | completed hcs => exact .completed hcs
  | stopped hcs hf =>
    refine .stopped hcs ?_
    cases hf with
    | declined hs ho => exact .declined hs ho
    | cut hpolls hpatience => exact .cut hpolls hpatience
    | overslept hk => exact .overslept hk
    | wordless hk hf => exact .wordless (hworded hk) hf
  | failed hcs hc hr hf => exact .failed hcs hc hr (hf.imp_right fun h => ⟨hworded h.1, h.2⟩)

/-- The faults that an operation can end in. -/
theorem ends {f : Fault} (h : Surfaces k n cs (some f)) :
    (∃ e, f = .bus e) ∨ (f = .impatient ∧ k.polls ∧ n = 0) ∨ (k.overlong ∧ ∃ message, f = .overflow message) ∨
      (¬ k.worded ∧ f.Wordless) := by
  cases h with
  | stopped hpass hf =>
    cases hf with
    | declined hs ho => exact .inl ⟨_, rfl⟩
    | cut hp hpatience => exact .inr (.inl ⟨rfl, hp, hpatience⟩)
    | overslept hk => exact .inr (.inr (.inl ⟨hk, _, rfl⟩))
    | wordless hk hf => exact .inr (.inr (.inr ⟨hk, hf⟩))
  | failed hpass hc hr hf =>
    obtain ⟨e, rfl, -⟩ | hwordless := hf
    · exact .inl ⟨e, rfl⟩
    · exact .inr (.inr (.inr hwordless))

end Surfaces

theorem Call.not_passes {polls : Prop} {c : Call} {failure : Failure} (hc : c.outcome = .error failure)
    (hr : ¬ (polls ∧ c.request.IsRelease)) : ¬ c.Passes polls := by
  rintro (⟨answer, hanswer⟩ | hrelease)
  · rw [hc] at hanswer
    cases hanswer
  · exact hr hrelease

/-- A call that fails is the last one, and its failure is told. -/
theorem Surfaces.told {k : Conduct} {n : Nat} {before after cs : List Call} {c : Call} {failure : Failure}
    {f : Option Fault} (h : Surfaces k n cs f) (hcs : cs = before ++ c :: after)
    (hc : c.outcome = .error failure) (hr : ¬ (k.polls ∧ c.request.IsRelease)) :
    after = [] ∧ ∃ fault, f = some fault ∧ k.Tells failure fault := by
  have hlost {cs : List Call} (hpass : ∀ c ∈ cs, c.Passes k.polls) : c ∉ cs := fun hmem =>
    Call.not_passes hc hr (hpass c hmem)
  have hmem : c ∈ before ++ c :: after := by simp
  cases h with
  | completed hpass => exact absurd (hcs ▸ hmem) (hlost hpass)
  | stopped hpass hf => exact absurd (hcs ▸ hmem) (hlost hpass)
  | @failed cs' last failure' fault hpass hlast hr' hf =>
    rcases List.eq_nil_or_concat after with rfl | ⟨after, x, rfl⟩
    · obtain ⟨-, hsame⟩ := List.append_inj' hcs rfl
      cases hsame
      rw [hc] at hlast
      cases hlast
      exact ⟨rfl, fault, rfl, hf⟩
    · -- a call behind it would be the last one, and it would have passed
      rw [List.concat_eq_append, ← List.cons_append, ← List.append_assoc] at hcs
      obtain ⟨hbefore, -⟩ := List.append_inj' hcs rfl
      exact absurd (by rw [hbefore]; simp) (hlost hpass)

/-- An error that tells of a failure is that of the last call, which has failed. -/
theorem Surfaces.fails {k : Conduct} {n : Nat} {cs : List Call} {e : BusError}
    (h : Surfaces k n cs (some (.bus e))) (hkind : e.kind = .security ∨ e.kind = .operation) :
    ∃ before c failure, cs = before ++ [c] ∧ c.outcome = .error failure ∧ ¬ (k.polls ∧ c.request.IsRelease) := by
  cases h with
  | stopped hpass hf =>
    cases hf with
    | declined hs ho => exact (hkind.elim hs ho).elim
    | wordless hk hf => exact absurd rfl (hf.ne_bus e)
  | failed hpass hc hr hf => exact ⟨_, _, _, rfl, hc, hr⟩

namespace Object

theorem Named.withHandle {o : Object} (h : o.Named) (handle : Value) : (o.withHandle handle).Named := by
  cases o <;> exact h

/-- A destination whose name and handle can be put into words. -/
structure Worded (o : Object) : Prop where
  named : o.Named
  handle : ∀ own, o.handle? = some own → own.Worded

theorem Worded.withHandle {o : Object} (h : o.Worded) {handle : Value} (hhandle : handle.Worded) :
    (o.withHandle handle).Worded := by
  refine ⟨h.named.withHandle handle, fun own hown => ?_⟩
  cases o with
  | message m => cases hown
  | queue | topic =>
    cases hown
    exact hhandle

end Object

namespace Action

variable {σ : Type}

def HasBag (w : World σ) (x : Value) : Prop :=
  ∃ ref m entries, x = .shared ref ∧ w.store.object? ref = some (.message m) ∧ m.properties = .dict entries

/-- What a value refers to as a destination has words, if it is one. -/
def Directed (w : World σ) (x : Value) : Prop :=
  ∀ d o own, x = .shared d → w.store.object? d = some o → o.handle? = some own → o.Worded

/-- Calls between two worlds, and the fault at their end, are reported in order if the services are in order. -/
structure Reports (k : Conduct) (w : World σ) (cs : List Call) (f : Option Fault) (v : World σ) : Prop where
  makes : Makes w cs v
  surfaces : (∀ c ∈ cs, c.Regular) → Surfaces k v.patience cs f

namespace Reports

variable {k : Conduct} {w v u : World σ} {cs cs' : List Call} {f : Option Fault}

theorem quiet (k : Conduct) (h : Makes w [] v) : Reports k w [] none v :=
  ⟨h, fun _ => .completed (by simp)⟩

theorem stopped {f : Fault} (h : Makes w [] v) (hf : k.Halts v.patience f) : Reports k w [] (some f) v :=
  ⟨h, fun _ => .stopped (by simp) hf⟩

/-- Steps report together. The later ones may count on the answers to the earlier ones for words. -/
theorem trans_of_regular (h : Reports k w cs none v)
    (h' : Reports { k with worded := k.worded ∧ ∀ c ∈ cs, c.Regular } v cs' f u) : Reports k w (cs ++ cs') f u where
  makes := h.makes.trans h'.makes
  surfaces hregular := by
    obtain ⟨hfirst, hlater⟩ := List.forall_mem_append.mp hregular
    exact (h.surfaces hfirst).behind ((h'.surfaces hlater).of_worded hfirst)

theorem trans (h : Reports k w cs none v) (h' : Reports k v cs' f u) : Reports k w (cs ++ cs') f u where
  makes := h.makes.trans h'.makes
  surfaces hregular := by
    obtain ⟨hfirst, hlater⟩ := List.forall_mem_append.mp hregular
    exact (h.surfaces hfirst).behind (h'.surfaces hlater)

theorem behind (h : Makes w [] v) (h' : Reports k v cs f u) : Reports k w cs f u := by
  have hreports := (quiet k h).trans h'
  rwa [List.nil_append] at hreports

theorem before (h : Reports k w cs none v) (h' : Makes v [] u) : Reports k w cs none u := by
  have hreports := h.trans (quiet k h')
  rwa [List.append_nil] at hreports

end Reports

variable [Service σ] {k : Conduct}

/-! ## Requests and lookups -/

theorem reports_answered (k : Conduct) {q : Request} {answer : Value} {w : World σ}
    (ho : (w.reply q).outcome = .ok answer) : Reports k w [⟨q, (w.reply q).outcome⟩] none (w.after q) :=
  ⟨.after w q, fun _ => .completed (List.forall_mem_singleton.mpr (.inl ⟨answer, ho⟩))⟩

theorem RequestEnds.reports_ok {context : Except Fault Text} {q : Request} {answer : Value} {w v : World σ}
    (h : RequestEnds context q w (.ok answer v)) (k : Conduct) :
    Reports k w [⟨q, (w.reply q).outcome⟩] none v := by
  cases h with
  | answered ho => exact reports_answered k ho

/-- A request that fails ends in a fault that tells so, as long as its context can be put into words. -/
theorem RequestEnds.reports_error {context : Except Fault Text} {values : List Value} {q : Request} {f : Fault}
    {w v : World σ} (h : RequestEnds context q w (.error f v)) (hc : TellsOf values context)
    (hk : k.worded → ∀ x ∈ values, x.Tellable) (hq : ¬ (k.polls ∧ q.IsRelease)) :
    Reports k w [⟨q, (w.reply q).outcome⟩] (some f) v := by
  refine ⟨h.makes, ?_⟩
  intro hregular
  have hcall := hregular _ (List.mem_singleton.mpr rfl)
  cases h with
  | failed ho he => exact .failed_alone ho hq (.inl ⟨_, rfl, (Failure.told_of_toldIn (hcall.failed ho) he).2⟩)
  | untold ho he =>
    have hcontext := Failure.toldIn_eq_error (hcall.failed ho) he
    refine .failed_alone ho hq (.inr ⟨fun hworded => ?_, hc.wordless hcontext⟩)
    obtain ⟨x, hx, hnone⟩ := hc f hcontext
    cases (hk hworded x hx).symm.trans hnone

theorem item_of_answered {q : Request} {key : Text} {answer : Value} (hq : q.handleKey? = some key)
    (h : q.Answered answer) : ∃ t, answer.item key = .ok (.text t) := by
  cases q with
  | createQueue name =>
    cases hq
    exact h
  | createTopic name =>
    cases hq
    exact h
  | _ => cases hq

/-- A lookup reports its call in order, and gives a handle that has words if all is in order. -/
theorem LookupEnds.reports {d : Ref} {o : Object} {w : World σ} {r : EStateM.Result Fault (World σ) Value}
    (h : LookupEnds d o w r) (hk : k.worded → o.Named) :
    ∃ cs, Reports k w cs (fault? r) (left r) ∧
      ∀ handle v, r = .ok handle v → (∀ c ∈ cs, c.Regular) → o.Worded → handle.Worded := by
  have hlookup {q : Request} {key : Text} (hq : Unbound o w.store q key) : ¬ (k.polls ∧ q.IsRelease) := by
    rintro ⟨_, url, handle, rfl⟩
    cases hq.key
  have hitem {q : Request} {key : Text} {answer : Value} (hq : Unbound o w.store q key)
      (ho : (w.reply q).outcome = .ok answer) (hregular : Call.Regular ⟨q, (w.reply q).outcome⟩) :
      ∃ t, answer.item key = .ok (.text t) := by
    rw [Call.Regular, ho] at hregular
    exact item_of_answered hq.key hregular
  cases h with
  | @known own ho hh =>
    refine ⟨_, .quiet k (.refl w), ?_⟩
    rintro _ _ ⟨⟩ - hown
    rw [Store.expanded, Store.expand_unshared (hown.handle own ho).unshared]
    exact hown.handle own ho
  | @found q key line answer handle hq ho hh =>
    refine ⟨_, (reports_answered k ho).before (.put_note ..), ?_⟩
    rintro _ _ ⟨⟩ hregular -
    obtain ⟨t, ht⟩ := hitem hq ho (hregular _ (List.mem_singleton.mpr rfl))
    cases hh.symm.trans ht
    exact Value.worded_text t
  | @malformed q key answer f hq ho hh =>
    refine ⟨_, ⟨.after w q, fun hregular => ?_⟩, by simp⟩
    obtain ⟨t, ht⟩ := hitem hq ho (hregular _ (List.mem_singleton.mpr rfl))
    cases hh.symm.trans ht
  | failed hq hr hc =>
    refine ⟨_, hr.reports_error hc (fun hworded => ?_) (hlookup hq), by simp⟩
    have htold : (o.told w.store).Tellable := by
      cases o with
      | queue q => exact (hk hworded).tellable_expand w.store _
      | topic t => exact (hk hworded).tellable_expand w.store _
      | message m => exact (hk hworded).elim
    exact List.forall_mem_singleton.mpr htold

theorem LookupEnds.kept {d : Ref} {o : Object} {w v : World σ} {handle : Value} (h : LookupEnds d o w (.ok handle v))
    (ho : w.store.object? d = some o) :
    v.store.object? d = some o ∨ v.store.object? d = some (o.withHandle handle) := by
  cases h with
  | known => exact .inl ho
  | @found q key line answer _ hq hanswer hh =>
    have hafter : (w.after q).store.object? d = some o := ho
    rw [World.store_note, World.store_put]
    exact .inr (Store.object?_replace_self hafter)

theorem LookupEnds.worded {d : Ref} {o o' : Object} {w v : World σ} {handle : Value}
    (h : LookupEnds d o w (.ok handle v)) (ho : w.store.object? d = some o) (ho' : v.store.object? d = some o')
    (hworded : o.Worded) (hhandle : handle.Worded) : o'.Worded := by
  rcases h.kept ho with hkept | hkept
  · cases hkept.symm.trans ho'
    exact hworded
  · cases hkept.symm.trans ho'
    exact hworded.withHandle hhandle

/-! ## Sends -/

/-- All messages with a dictionary for their properties still have one. -/
def KeepsBags (w v : World σ) : Prop := ∀ x, HasBag w x → HasBag v x

omit [Service σ] in
theorem KeepsBags.of_store {w v : World σ} (h : v.store = w.store) : KeepsBags w v := by
  rintro x ⟨ref, m, entries, hx, hm, hentries⟩
  exact ⟨ref, m, entries, hx, by rw [h, hm], hentries⟩

omit [Service σ] in
theorem KeepsBags.trans {w v u : World σ} (h : KeepsBags w v) (h' : KeepsBags v u) : KeepsBags w u :=
  fun x hx => h' x (h x hx)

omit [Service σ] in
theorem KeepsBags.put_message {w : World σ} {ref : Ref} {m m' : Message Value} {entries : List (Value × Value)}
    (hm : w.store.object? ref = some (.message m)) (hentries : m'.properties = .dict entries) :
    KeepsBags w (w.put ref (.message m')) := by
  rintro x ⟨other, n, entries', rfl, hn, hentries'⟩
  by_cases hother : ref = other
  · subst hother
    exact ⟨ref, m', entries, rfl, Store.object?_replace_self hm, hentries⟩
  · exact ⟨other, n, entries', rfl, by rw [World.store_put, Store.object?_replace_other _ hother, hn], hentries'⟩

omit [Service σ] in
theorem KeepsBags.put_destination {w : World σ} {d : Ref} {o : Object} {h : Value}
    (ho : w.store.object? d = some o) (hh : o.handle? = some h) (o' : Object) : KeepsBags w (w.put d o') := by
  rintro x ⟨other, m, entries, rfl, hm, hentries⟩
  have hother := Store.ne_of_handle ho hh hm
  exact ⟨other, m, entries, rfl, by rw [World.store_put, Store.object?_replace_other _ hother, hm], hentries⟩

theorem LookupEnds.keepsBags {d : Ref} {o : Object} {w : World σ} {r : EStateM.Result Fault (World σ) Value}
    (h : LookupEnds d o w r) (ho : w.store.object? d = some o) : KeepsBags w (left r) := by
  cases h with
  | known hh hbound => exact .of_store rfl
  | @found q key line answer handle hq hanswer hh =>
    have hafter : (w.after q).store.object? d = some o := ho
    exact (KeepsBags.put_destination hafter hq.handle _).trans (.of_store (World.store_note ..))
  | malformed hq hanswer hh => exact .of_store rfl
  | failed hq hr => exact .of_store hr.store

omit [Service σ] in
theorem properties_identified (m : Message Value) (id : Text) : (m.identified id).properties = m.properties := by
  rw [Message.identified]
  split <;> rfl

omit [Service σ] in
theorem keepsBags_addressed {o : Object} {ref : Ref} {m m' : Message Value} {v u : World σ}
    {entries : List (Value × Value)} (hm : v.store.object? ref = some (.message m))
    (hentries : m.properties = .dict entries) (h : addressed o ref m v = (m', u)) : KeepsBags v u := by
  rcases addressed_cases h with ⟨-, rfl⟩ | ⟨rfl, rfl⟩
  · exact .of_store rfl
  · have hidentified := (properties_identified m v.nextIdentifier).trans hentries
    exact KeepsBags.trans (.of_store rfl) (.put_message (w := v.numbered) hm hidentified)

/-- Handing over a message reports its calls in order, and leaves a destination that has words as one. -/
theorem HandingEnds.reports {worded : Prop} {d ref : Ref} {o : Object} {m : Message Value} {w : World σ}
    {r : EStateM.Result Fault (World σ) Unit} (h : HandingEnds d o ref m w r) (ho : w.store.object? d = some o)
    (hother : d ≠ ref) (hk : worded → o.Worded) :
    ∃ cs, Reports (.still worded) w cs (fault? r) (left r) ∧
      ∀ v o', r = .ok () v → (∀ c ∈ cs, c.Regular) → o.Worded → v.store.object? d = some o' → o'.Worded := by
  have hlooks {r : EStateM.Result Fault (World σ) Value} (hl : LookupEnds d o w r) :=
    hl.reports (k := .still worded) fun hworded => (hk hworded).named
  have hnumbered {v : World σ} {handle answer : Value} {wire : Text} {cs : List Call}
      (hanswer : (v.reply (.sendMessage handle wire)).outcome = .ok answer)
      (hregular : ∀ c ∈ cs ++ [⟨.sendMessage handle wire, (v.reply (.sendMessage handle wire)).outcome⟩], c.Regular) :
      ∃ t, answer.item "MessageId" = .ok (.text t) := by
    have hcall := hregular _ (List.mem_append_right _ (List.mem_singleton.mpr rfl))
    rw [Call.Regular, hanswer] at hcall
    exact hcall
  cases h with
  | unfound hl =>
    obtain ⟨cs, hlookup, -⟩ := hlooks hl
    exact ⟨cs, hlookup, nofun⟩
  | @unwritten handle v u m' e hl ha hwire =>
    obtain ⟨cs, hlookup, -⟩ := hlooks hl
    have hkind := Codec.kind_of_serialize hwire
    have hlogged := (makes_addressed ha).trans (.log u .error .codec e.message)
    exact ⟨_, hlookup.trans (.stopped hlogged (.declined (by simp [hkind]) (by simp [hkind]))), nofun⟩
  | @refused handle v u u' m' wire context f hl ha hwire hr hc =>
    obtain ⟨cs, hlookup, hgiven⟩ := hlooks hl
    have htellable (hworded : worded ∧ ∀ c ∈ cs, c.Regular) : ∀ x ∈ [handle], x.Tellable :=
      List.forall_mem_singleton.mpr (hgiven handle v rfl hworded.2 (hk hworded.1)).tellable
    have hrefused := hr.reports_error (k := .still (worded ∧ ∀ c ∈ cs, c.Regular)) hc htellable (fun h => h.1)
    exact ⟨_, hlookup.trans_of_regular (.behind (makes_addressed ha) hrefused), nofun⟩
  | @unnumbered q handle answer v wire f hq hl hwire hanswer hid =>
    obtain ⟨cs, hlookup, -⟩ := hlooks hl
    refine ⟨_, ⟨hlookup.makes.trans (.after v (.sendMessage handle wire)), fun hregular => ?_⟩, nofun⟩
    obtain ⟨t, ht⟩ := hnumbered hanswer hregular
    cases hid.symm.trans ht
  | @unnamed q handle answer id v wire f hq hl hwire hanswer hid hwords =>
    obtain ⟨cs, hlookup, -⟩ := hlooks hl
    refine ⟨_, ⟨hlookup.makes.trans (.after v (.sendMessage handle wire)), fun hregular => ?_⟩, nofun⟩
    obtain ⟨t, ht⟩ := hnumbered hanswer hregular
    cases hid.symm.trans ht
    cases hwords
  | @posted q handle answer id v wire hq hl hwire hanswer hid htakes =>
    obtain ⟨cs, hlookup, hgiven⟩ := hlooks hl
    have hsent := Reports.before (reports_answered (.still worded) hanswer)
      (.put_note _ ref (.message (m.identified id.shown)) .info .connector (sentLine id))
    refine ⟨_, hlookup.trans hsent, ?_⟩
    rintro _ o' ⟨⟩ hregular hworded ho'
    have hfirst := (List.forall_mem_append.mp hregular).1
    rw [Action.posted, World.store_note, World.store_put, Store.object?_replace_other _ hother.symm] at ho'
    exact hl.worded ho ho' hworded (hgiven handle v rfl hfirst hworded)
  | @published t handle answer v u m' wire line ht hl ha hwire hanswer =>
    obtain ⟨cs, hlookup, hgiven⟩ := hlooks hl
    have hsent := Reports.before (reports_answered (.still worded) hanswer) (.note _ .info .connector line)
    refine ⟨_, hlookup.trans (.behind (makes_addressed ha) hsent), ?_⟩
    rintro _ o' ⟨⟩ hregular hworded ho'
    have hfirst := (List.forall_mem_append.mp hregular).1
    have hkept : u.store.object? d = v.store.object? d := by
      rcases addressed_cases ha with ⟨-, rfl⟩ | ⟨-, rfl⟩
      · rfl
      · exact Store.object?_replace_other (s := v.numbered.store) _ hother.symm
    rw [World.store_note, World.store_after, hkept] at ho'
    exact hl.worded ho ho' hworded (hgiven handle v rfl hfirst hworded)

theorem HandingEnds.keepsBags {d ref : Ref} {o : Object} {m : Message Value} {w : World σ}
    {r : EStateM.Result Fault (World σ) Unit} {entries : List (Value × Value)} (h : HandingEnds d o ref m w r)
    (ho : w.store.object? d = some o) (hm : w.store.object? ref = some (.message m)) (hother : d ≠ ref)
    (hentries : m.properties = .dict entries) : KeepsBags w (left r) := by
  have hmessage {h : Value} {v : World σ} (hl : LookupEnds d o w (.ok h v)) :
      KeepsBags w v ∧ v.store.object? ref = some (.message m) := ⟨hl.keepsBags ho, (hl.frame hother).trans hm⟩
  cases h with
  | unfound hl => exact hl.keepsBags ho
  | unwritten hl ha hwire =>
    obtain ⟨hkeeps, hv⟩ := hmessage hl
    exact (hkeeps.trans (keepsBags_addressed hv hentries ha)).trans (.of_store rfl)
  | refused hl ha hwire hr =>
    obtain ⟨hkeeps, hv⟩ := hmessage hl
    exact (hkeeps.trans (keepsBags_addressed hv hentries ha)).trans (.of_store hr.store)
  | unnumbered hq hl hwire hanswer hid =>
    exact (hmessage hl).1.trans (.of_store rfl)
  | unnamed hq hl hwire hanswer hid hwords =>
    exact (hmessage hl).1.trans (.of_store rfl)
  | @posted q handle answer id v wire hq hl hwire hanswer hid htakes =>
    obtain ⟨hkeeps, hv⟩ := hmessage hl
    have hafter : (v.after (.sendMessage handle wire)).store.object? ref = some (.message m) := hv
    have hput := KeepsBags.put_message hafter ((properties_identified m id.shown).trans hentries)
    exact ((hkeeps.trans (.of_store rfl)).trans hput).trans (.of_store (World.store_note ..))
  | published ht hl ha hwire hanswer =>
    obtain ⟨hkeeps, hv⟩ := hmessage hl
    exact (hkeeps.trans (keepsBags_addressed hv hentries ha)).trans (.of_store (World.store_note ..))

/-- A send reports its calls in order, and leaves the messages and a destination that has words as they have to be. -/
theorem send_reports {worded : Prop} {destination x : Value} {w : World σ} (hx : HasBag w x)
    (hk : worded → Directed w destination) :
    (∃ cs, Reports (.still worded) w cs (fault? ((send destination x).run w)) (left ((send destination x).run w)) ∧
      ∀ v, (send destination x).run w = .ok () v → (∀ c ∈ cs, c.Regular) → Directed w destination →
        Directed v destination) ∧
      KeepsBags w (left ((send destination x).run w)) := by
  obtain ⟨ref, m, entries, rfl, hm, hentries⟩ := hx
  obtain ⟨stamped, hstamped, hbag⟩ : ∃ stamped, m.stamped w.wallClock = .ok stamped ∧
      stamped.properties = .dict (m.notedEntries entries) := ⟨_, Message.stamped_of_dict hentries _, rfl⟩
  have hends := sendEnds destination (.shared ref) w
  generalize (send destination (.shared ref)).run w = r at hends
  have hput := KeepsBags.put_message hm hbag
  cases hends with
  | nowhere hd => exact ⟨⟨_, .stopped (.refl w) (.declined (by simp) (by simp)), nofun⟩, .of_store rfl⟩
  | unstamped hd hs =>
    have hrun := run_stamp hm
    rw [hs, hstamped] at hrun
    cases hrun
  | misdirected hd hx hm₁ hs ho =>
    cases hx
    rw [hm] at hm₁
    cases hm₁
    rw [hstamped] at hs
    cases hs
    exact ⟨⟨_, .stopped (.of_trace rfl) (.declined (by simp) (by simp)), nofun⟩, hput⟩
  | @directed d ref' o h m₁ m₂ _ hd ho hh hx hm₁ hs hr =>
    cases hx
    rw [hm] at hm₁
    cases hm₁
    rw [hstamped] at hs
    cases hs
    have hother := Store.ne_of_handle ho hh hm
    have hdestination := World.destination_put ho hh hm stamped
    obtain ⟨cs, hreports, hkept⟩ := hr.reports hdestination hother fun hworded => hk hworded d o h hd ho hh
    have hmakes : Makes w [] (w.put ref (.message stamped)) := .of_trace rfl
    have hkeeps := hr.keepsBags hdestination (Store.object?_replace_self hm) hother hbag
    refine ⟨⟨cs, .behind hmakes hreports, ?_⟩, hput.trans hkeeps⟩
    intro v hv hregular hdirected d' o' own' hd' ho' _
    cases hd.symm.trans hd'
    exact hkept v o' hv hregular (hdirected d o h hd ho hh) ho'

/-- The induction is on the messages: a send leaves those behind it, and the destination, as they have to be. -/
theorem sendAll_reports {worded : Prop} {destination : Value} {xs : List Value} {w : World σ}
    (hxs : ∀ x ∈ xs, HasBag w x) (hk : worded → Directed w destination) :
    ∃ cs, Reports (.still worded) w cs (fault? ((sendAll destination xs).run w))
      (left ((sendAll destination xs).run w)) := by
  induction xs generalizing w worded with
  | nil => exact ⟨_, .quiet _ (.refl w)⟩
  | cons x xs ih =>
    obtain ⟨⟨cs, hsend, hkept⟩, hkeeps⟩ := send_reports (hxs x List.mem_cons_self) hk
    rw [sendAll]
    cases hr : (send destination x).run w with
    | error f v =>
      rw [run_bind_of_error hr]
      rw [hr] at hsend
      exact ⟨cs, hsend⟩
    | ok _ v =>
      rw [run_bind_of_ok hr]
      rw [hr] at hsend hkeeps
      -- the sends behind it count on the answers to this one for the words of the destination
      have hdirected (hworded : worded ∧ ∀ c ∈ cs, c.Regular) : Directed v destination :=
        hkept v hr hworded.2 (hk hworded.1)
      obtain ⟨cs', hrest⟩ := ih (fun y hy => hkeeps y (hxs y (List.mem_cons_of_mem _ hy))) hdirected
      exact ⟨_, hsend.trans_of_regular hrest⟩

end Action

end MessageBus
