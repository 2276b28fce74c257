import Mathlib.Data.List.DropRight
import MessageBus.Proofs.WrittenOnce

/-!
# Listing queues

A listing gives one queue for each URL that the service names, in the order of first occurrence (`Listed`), and
the queue bears the name that its URL ends in (`EndsIn`). It is bound from the start, so nothing that is done on
its behalf looks it up (`Operation.madeFor_bound`).
-/

namespace MessageBus

/-- A URL ends in a name: behind its last slash, slashes at its end aside. -/
structure EndsIn (url name : Text) : Prop where
  split : ∃ before slashes : Text, url = before ++ name ++ slashes ∧
    (before = [] ∨ before.getLast? = some (.char '/')) ∧ ∀ c ∈ slashes, c = .char '/'
  unslashed : .char '/' ∉ name
  named : name = [] → ∀ c ∈ url, c = .char '/'

/-- Each of some texts once, in the order of first occurrence. -/
structure Listed (texts once : List Text) : Prop where
  nodup : once.Nodup
  mem_iff : ∀ t, t ∈ once ↔ t ∈ texts
  ordered : once.Pairwise fun t u => texts.idxOf t < texts.idxOf u

/-! ## Names of URLs -/

namespace EndsIn

variable {url name : Text}

theorem nameOfUrl (url : Text) : EndsIn url (Queue.nameOfUrl url) := by
  let slash : CodePoint → Bool := (· = .char '/')
  let plain : CodePoint → Bool := (· ≠ .char '/')
  let stem : Text := url.rdropWhile slash
  show EndsIn url (stem.rtakeWhile plain)
  have hslash {c : CodePoint} (h : slash c = true) : c = .char '/' := by simpa [slash] using h
  have hplain {c : CodePoint} (h : ¬ plain c = true) : c = .char '/' := by simpa [plain] using h
  refine ⟨⟨stem.rdropWhile plain, url.rtakeWhile slash, ?_, ?_, ?_⟩, ?_, ?_⟩
  · rw [List.rdropWhile_append_rtakeWhile, List.rdropWhile_append_rtakeWhile]
  · by_cases hbefore : stem.rdropWhile plain = []
    · exact .inl hbefore
    · right
      rw [List.getLast?_eq_some_getLast hbefore, hplain (List.rdropWhile_last_not plain stem hbefore)]
  · exact fun c hc => hslash (List.mem_rtakeWhile_imp hc)
  · intro hmem
    have hslashed := List.mem_rtakeWhile_imp hmem
    simp [plain] at hslashed
  · intro hempty
    -- what the slashes are cut off from ends in none, so without a name nothing is left of it
    have hstem : stem = [] := by
      by_contra hsome
      have hlast := hplain (List.rtakeWhile_eq_nil_iff.mp hempty hsome)
      apply List.rdropWhile_last_not slash url hsome
      simp [slash, stem, hlast]
    exact fun c hc => hslash (List.rdropWhile_eq_nil_iff.mp hstem c hc)

theorem eq_nameOfUrl (h : EndsIn url name) : name = Queue.nameOfUrl url := by
  let slash : CodePoint → Bool := (· = .char '/')
  let plain : CodePoint → Bool := (· ≠ .char '/')
  show name = (url.rdropWhile slash).rtakeWhile plain
  obtain ⟨before, slashes, hurl, hbefore, hslashes⟩ := h.split
  by_cases hname : name = []
  · have hnothing : url.rdropWhile slash = [] :=
      List.rdropWhile_eq_nil_iff.mpr fun c hc => by simp [slash, h.named hname c hc]
    rw [hnothing, hname, List.rtakeWhile_nil]
  · have hplain : ∀ c ∈ name, c ≠ .char '/' := fun c hc hslash => h.unslashed (hslash ▸ hc)
    have hcut : url.rdropWhile slash = before ++ name := by
      have hall : ∀ c ∈ slashes.reverse, slash c = true := by simpa [slash] using hslashes
      have hends : ∀ hne : before ++ name ≠ [], ¬ slash ((before ++ name).getLast hne) = true := by
        intro hne
        rw [List.getLast_append_of_ne_nil hne hname]
        simpa [slash] using hplain _ (List.getLast_mem hname)
      rw [hurl, List.rdropWhile, List.reverse_append, List.dropWhile_append_of_pos hall]
      exact List.rdropWhile_eq_self_iff.mpr hends
    have hstart : before.rtakeWhile plain = [] := by
      rw [List.rtakeWhile_eq_nil_iff]
      intro hne
      rcases hbefore with rfl | hlast
      · exact absurd rfl hne
      · rw [List.getLast?_eq_some_getLast hne] at hlast
        rw [Option.some.inj hlast]
        simp [plain]
    have hall : ∀ c ∈ name.reverse, plain c = true := by simpa [plain] using hplain
    rw [hcut, List.rtakeWhile, List.reverse_append, List.takeWhile_append_of_pos hall, List.reverse_append,
      List.reverse_reverse, ← List.rtakeWhile, hstart, List.nil_append]

end EndsIn

namespace Queue

def under (url : Text) : Queue := ⟨.text "queue", .text (nameOfUrl url), .text url⟩

end Queue

namespace Action

/-! ## What is listed -/

/-- Texts are listed once each. The induction is on the texts: the first one takes all others like it away. -/
theorem distinct_texts (texts : List Text) :
    ∃ once, distinct (texts.map .text) = once.map .text ∧ Listed texts once := by
  induction texts with
  | nil => exact ⟨[], rfl, .nil, by simp, .nil⟩
  | cons t texts ih =>
    obtain ⟨once, honce, hlisted⟩ := ih
    have hsame (u : Text) : (!(Value.text t).same (.text u)) = decide (u ≠ t) := by
      have hiff : (Value.text t).same (.text u) = true ↔ u = t :=
        ⟨fun h => Value.text.inj (Value.eq_text_of_same h), fun h => h ▸ Value.same_text t⟩
      cases hb : (Value.text t).same (.text u) <;> simp_all
    refine ⟨t :: once.filter (· ≠ t), ?_, ?_, ?_, ?_⟩
    · simp only [List.map_cons, distinct, honce, List.filter_map, Function.comp_def, hsame]
    · rw [List.nodup_cons]
      exact ⟨by simp, hlisted.nodup.filter _⟩
    · intro u
      by_cases hu : u = t
      · simp [hu]
      · simp [hu, hlisted.mem_iff u]
    · have hlater {u : Text} (hu : u ∈ once.filter (· ≠ t)) : (t :: texts).idxOf u = texts.idxOf u + 1 := by
        have hne : u ≠ t := by simpa using (List.mem_filter.mp hu).2
        exact List.idxOf_cons_ne texts hne.symm
      rw [List.pairwise_cons]
      constructor
      · intro u hu
        rw [hlater hu, List.idxOf_cons_self]
        omega
      · refine (hlisted.ordered.filter _).imp_of_mem ?_
        intro u v hu hv hlt
        rw [hlater hu, hlater hv]
        omega

theorem queuesOfUrls_texts (urls : List Text) : queuesOfUrls (urls.map .text) = .ok (urls.map Queue.under) := by
  induction urls with
  | nil => rfl
  | cons url urls ih =>
    have hqueue : queueOfUrl (.text url) = .ok (Queue.under url) := by
      with_unfolding_all rfl
    rw [List.map_cons, queuesOfUrls, hqueue, ih]
    rfl

/-- An answer that names texts, or nothing, lists the queues under these. -/
theorem listed_texts {answer : Value} {urls : List Text}
    (h : answer.get "QueueUrls" (.list []) = .ok (.list (urls.map .text))) :
    ∃ once, (do queuesOfUrls (← listedUrls answer) : Except Fault (List Queue)) = .ok (once.map Queue.under) ∧
      Listed urls once := by
  obtain ⟨once, honce, hlisted⟩ := distinct_texts urls
  have hkeys : (urls.map Value.text).all Value.isKey = true := by simp [Value.isKey]
  have hurls : listedUrls answer = .ok (once.map .text) := by
    rw [listedUrls, h]
    simp only [bind, Except.bind, Value.items, hkeys, if_true, honce]
  refine ⟨once, ?_, hlisted⟩
  rw [hurls]
  exact queuesOfUrls_texts once

/-! ## What is done on behalf of a bound destination -/

section bound

variable {σ : Type} {w : World σ} {d : Ref} {t : Text}

theorem bindHandle_uses (handle : Value) (hw : w.handle? d = some (.text t)) :
    Uses (.text t) w [] (left ((bindHandle (.shared d) handle).run w)) := by
  have hends := bindEnds (.shared d) handle w
  generalize (bindHandle (.shared d) handle).run w = r at hends
  cases hends with
  | foreign hx => exact .refl _ w
  | refused hx ho hh hbound hother he => exact .refl _ w
  | wordless => exact .refl _ w
  | @given _ o h hx ho hh hsame =>
    cases hx
    have hhandle := hw
    rw [World.handle?_of_object ho, hh] at hhandle
    cases hhandle
    -- a text is bound again to itself only
    have hagain : handle = .text t := by
      rcases hsame with hnull | hsame
      · cases hnull
      · exact Value.eq_text_of_same hsame
    refine .quiet _ (.put ..) ?_
    intro ref h' hw'
    by_cases href : d = ref
    · subst href
      rw [hw] at hw'
      cases hw'
      rw [← hagain]
      exact World.handle?_put_withHandle ho hh handle
    · exact (World.handle?_put_other w _ href).trans hw'

variable [Service σ]

theorem sendAll_uses (xs : List Value) (hw : w.handle? d = some (.text t)) :
    ∃ cs, Uses (.text t) w cs (left ((sendAll (.shared d) xs).run w)) := by
  induction xs generalizing w with
  | nil => exact ⟨_, .refl _ w⟩
  | cons x xs ih =>
    obtain ⟨cs, hsend⟩ := (send_onBehalf (.shared d) x w).uses hw
    rw [sendAll]
    cases hr : (send (.shared d) x).run w with
    | error f v =>
      rw [run_bind_of_error hr]
      rw [hr] at hsend
      exact ⟨cs, hsend⟩
    | ok _ v =>
      rw [run_bind_of_ok hr]
      rw [hr] at hsend
      obtain ⟨cs', hrest⟩ := ih (hsend.keeps d _ hw)
      exact ⟨_, hsend.trans hrest⟩

end bound

end Action

namespace Operation

open MessageBus.Action

variable {σ : Type} [Service σ] {d : Ref} {t : Text}

theorem uses_bound (op : Operation) {w : World σ} (htarget : op.target w = some d)
    (hw : w.handle? d = some (.text t)) : Uses (.text t) w (op.made w) (op.after w) := by
  have hx {x : Value} (h : x.ref? = some d) : x = .shared d := by
    cases x <;> cases h
    rfl
  have huses : ∃ cs, Uses (.text t) w cs (left (op.action.run w)) := by
    cases op with
    | resolve x =>
      simp only [action, left_discard]
      exact OnBehalf.uses (htarget ▸ (resolvingEnds x w).onBehalf) hw
    | resolveQueue x =>
      simp only [action, left_discard]
      exact OnBehalf.uses (htarget ▸ (resolvingEnds_queue x w).onBehalf) hw
    | resolveTopic x =>
      simp only [action, left_discard]
      exact OnBehalf.uses (htarget ▸ (resolvingEnds_topic x w).onBehalf) hw
    | bindHandle x handle =>
      cases hx htarget
      exact ⟨[], bindHandle_uses handle hw⟩
    | send destination x => exact OnBehalf.uses (htarget ▸ send_onBehalf destination x w) hw
    | sendAll destination xs =>
      cases hx htarget
      exact sendAll_uses xs hw
    | receive c queue timeout =>
      simp only [action, left_discard]
      exact OnBehalf.uses (htarget ▸ receive_onBehalf c queue timeout w) hw
    | delete x =>
      simp only [action, delete_eq]
      exact OnBehalf.uses (htarget ▸ (acknowledgeEnds ..).onBehalf fun _ _ => rfl) hw
    | reset x =>
      simp only [action, reset_eq]
      exact OnBehalf.uses (htarget ▸ (acknowledgeEnds ..).onBehalf fun _ _ => rfl) hw
    | deleteQueue x => exact OnBehalf.uses (htarget ▸ (deletionEnds x w).onBehalf) hw
    | test => cases htarget
    | createQueue name => cases htarget
    | listQueues start => cases htarget
  obtain ⟨cs, huses⟩ := huses
  have hmade : op.made w = cs := made_eq huses.makes
  rw [hmade]
  exact huses

/-- Whatever is done from now on, all calls on behalf of a destination that has a text for its handle carry it.
The induction is on the history: no operation takes the handle away. -/
theorem madeFor_bound (ops : List Operation) {w : World σ} (hw : w.handle? d = some (.text t)) :
    ∀ c ∈ madeFor d w ops, c.request.handle? = some (.text t) := by
  induction ops generalizing w with
  | nil => simp [madeFor]
  | cons op ops ih =>
    rw [madeFor, List.forall_mem_append]
    by_cases htarget : op.target w = some d
    · have huses := op.uses_bound htarget hw
      rw [if_pos htarget]
      exact ⟨huses.carried, ih (huses.keeps d _ hw)⟩
    · rw [if_neg htarget]
      exact ⟨by simp, ih ((op.serves w).others d _ htarget hw)⟩

end Operation

namespace Action

/-- What a listing promises of the queues that it gives for the URLs of an answer. -/
structure Lists (σ : Type) [Service σ] (urls : List Text) (queues : List Queue) : Prop where
  /-- The queues have the URLs of the answer, each once, in the order of first occurrence. -/
  listed : ∃ once, queues.map Queue.url = once.map .text ∧ Listed urls once
  /-- A queue has the one name that its URL ends in. -/
  named : ∀ q ∈ queues, ∃ url name, q = ⟨.text "queue", .text name, .text url⟩ ∧ EndsIn url name ∧
    ∀ other, EndsIn url other → other = name
  /-- What is done on behalf of a queue never creates one: its calls carry the URL that it was listed under. -/
  bound : ∀ q ∈ queues, ∀ (w : World σ) d, w.store.object? d = some (.queue q) → ∀ ops,
    ∀ c ∈ Operation.madeFor d w ops, c.request.handle? = some q.url ∧ ∀ name, c.request ≠ .createQueue name

variable {σ : Type} [Service σ]

/-- Listing queues loses and invents nothing, whatever the answer names. -/
theorem listQueues_lists (start : Value) {w : World σ} {answer : Value} {urls : List Text}
    (ho : (w.reply (.listQueues (if start.truthy then some start else none))).outcome = .ok answer)
    (hurls : answer.get "QueueUrls" (.list []) = .ok (.list (urls.map .text))) :
    ∃ queues, (listQueues start).run w =
        .ok queues (w.after (.listQueues (if start.truthy then some start else none))) ∧ Lists σ urls queues := by
  obtain ⟨once, hqueues, hlisted⟩ := listed_texts hurls
  refine ⟨once.map Queue.under, ?_, ?_⟩
  · rw [listQueues, run_bind_of_ok (run_words _ _), run_bind_of_ok (run_request_ok _ ho), hqueues]
    rfl
  · constructor
    case listed => exact ⟨once, by simp [Queue.under], hlisted⟩
    case named =>
      intro q hq
      obtain ⟨url, _, rfl⟩ := List.mem_map.mp hq
      exact ⟨url, _, rfl, .nameOfUrl url, fun other hother => hother.eq_nameOfUrl⟩
    case bound =>
      intro q hq v d hv ops c hc
      obtain ⟨url, _, rfl⟩ := List.mem_map.mp hq
      have hhandle : v.handle? d = some (.text url) := World.handle?_of_object hv
      have hcarried := Operation.madeFor_bound ops hhandle c hc
      refine ⟨hcarried, ?_⟩
      intro name hlookup
      rw [hlookup] at hcarried
      cases hcarried

def namedUrls : List Text := ["q/orders", "q/events//", "q/orders", "//"]

def naming : World Script :=
  { started := 0, elapsed := 0, timers := [], running := true,
    service := ⟨[("list_queues",
      [⟨0, none, some (.ok (Value.ofFields [("QueueUrls", .list (namedUrls.map .text))]))⟩])], 0, [], 0⟩,
    store := ⟨[]⟩, serial := 0, patience := 0, trace := [] }

/-- The second mention of a URL is dropped, and slashes at the end of a URL are no part of a name. -/
theorem naming_lists : ∃ v, (listQueues .null).run naming = .ok
      [⟨.text "queue", .text "orders", .text "q/orders"⟩, ⟨.text "queue", .text "events", .text "q/events//"⟩,
        ⟨.text "queue", .text "", .text "//"⟩] v ∧
    Lists Script namedUrls
      [⟨.text "queue", .text "orders", .text "q/orders"⟩, ⟨.text "queue", .text "events", .text "q/events//"⟩,
        ⟨.text "queue", .text "", .text "//"⟩] := by
  have hurls : (Value.ofFields [("QueueUrls", .list (namedUrls.map .text))]).get "QueueUrls" (.list []) =
      .ok (.list (namedUrls.map .text)) := rfl
  obtain ⟨queues, hrun, hlists⟩ := listQueues_lists .null (w := naming) rfl hurls
  have hqueues : (listQueues .null).run naming = .ok
      [⟨.text "queue", .text "orders", .text "q/orders"⟩, ⟨.text "queue", .text "events", .text "q/events//"⟩,
        ⟨.text "queue", .text "", .text "//"⟩] (naming.after (.listQueues none)) := by
    with_unfolding_all rfl
  rw [hqueues] at hrun
  cases hrun
  exact ⟨_, hqueues, hlists⟩

end Action

end MessageBus
