import MessageBus.Store

/-!
# Values that can be put into words

Of a value that cannot be put into words, an integer is too long or too many values lie within each other
(`Value.wordless_of_inWords`). A value that holds no shared object keeps its words whatever becomes of these (`Worded`),
and a destination has words if its name has (`Store.tellable_named`).
-/

namespace MessageBus

/-- A fault of a value that cannot be put into words. -/
def Fault.Wordless (f : Fault) : Prop := f = .tooNested ∨ f = Value.tooManyDigits

theorem Fault.Wordless.ne_bus {f : Fault} (h : f.Wordless) (e : BusError) : f ≠ .bus e := by
  rcases h with rfl | rfl <;> simp [Value.tooManyDigits]

namespace Value

theorem inWords_text (t : Text) : (text t).inWords = .ok t := rfl

theorem inWords_eq_ok {v : Value} {t : Text} (h : v.inWords = .ok t) : t = v.shown := by
  rw [inWords] at h
  split at h
  · cases h
  · exact (Except.ok.inj h).symm

/-- The value can be put into words. -/
def Tellable (v : Value) : Prop := v.inWords = .ok v.shown

theorem tellable_of_inWords {v : Value} {t : Text} (h : v.inWords = .ok t) : v.Tellable := by
  rw [Tellable, ← inWords_eq_ok h]
  exact h

theorem tellable_text (t : Text) : (text t).Tellable := rfl

theorem tellable_null : null.Tellable := rfl

theorem inWords_eq_error {v : Value} {f : Fault} (h : v.inWords = .error f) : untold? levelsInWords v = some f := by
  rw [inWords] at h
  split at h
  · next hf => exact hf.trans (congrArg some (Except.error.inj h))
  · cases h

/-- The induction is on the levels that are left: a part of a value has one less. -/
theorem wordless_of_unlisted? {levels : Nat} {v : Value} {f : Fault} (h : unlisted? levels v = some f) :
    f.Wordless := by
  induction levels generalizing v with
  | zero => exact .inl (Option.some.inj h).symm
  | succ levels ih =>
    cases v with
    | int n =>
      rw [unlisted?] at h
      split at h
      · exact .inr (Option.some.inj h).symm
      · cases h
    | list items | tuple items | set items =>
      obtain ⟨_, item, _, -, hitem, -⟩ := List.findSome?_eq_some_iff.mp h
      exact ih hitem
    | dict entries =>
      obtain ⟨_, e, _, -, he, -⟩ := List.findSome?_eq_some_iff.mp h
      rcases Option.or_eq_some_iff.mp he with hkey | ⟨-, hvalue⟩
      · exact ih hkey
      · exact ih hvalue
    | record type fields =>
      obtain ⟨_, field, _, -, hfield, -⟩ := List.findSome?_eq_some_iff.mp h
      exact ih hfield
    | shared ref => exact .inl (Option.some.inj h).symm
    | _ => cases h

theorem wordless_of_untold? {levels : Nat} {v : Value} {f : Fault} (h : untold? levels v = some f) : f.Wordless := by
  induction levels generalizing v with
  | zero => exact .inl (Option.some.inj h).symm
  | succ levels ih =>
    unfold untold? at h
    split at h
    · cases h
    · obtain ⟨name, -, hname⟩ := Option.bind_eq_some_iff.mp h
      exact ih hname
    · obtain ⟨name, -, hname⟩ := Option.bind_eq_some_iff.mp h
      exact ih hname
    · exact wordless_of_unlisted? h

/-- What keeps a value from being put into words is its size. -/
theorem wordless_of_inWords {v : Value} {f : Fault} (h : v.inWords = .error f) : f.Wordless :=
  wordless_of_untold? (inWords_eq_error h)

theorem tellable_of_untold? {v : Value} (h : untold? levelsInWords v = none) : v.Tellable := by
  rw [Tellable, inWords, h]

/-- A value that can be put into words within so many others, and holds no shared object: nothing that becomes of these
changes its words. -/
structure WordedIn (levels : Nat) (v : Value) : Prop where
  unshared : ∀ f, v.replaceShared f = v
  told : untold? levels v = none

/-- A value that holds no shared object and can be put into words. -/
abbrev Worded (v : Value) : Prop := v.WordedIn levelsInWords

theorem worded_text (t : Text) : (text t).Worded := ⟨fun _ => rfl, rfl⟩

theorem worded_null : null.Worded := ⟨fun _ => rfl, rfl⟩

theorem Worded.tellable {v : Value} (h : v.Worded) : v.Tellable := tellable_of_untold? h.told

/-- A value with so many lists around it. -/
def enclosed : Nat → Value → Value
  | 0, v => v
  | n + 1, v => .list [enclosed n v]

theorem unlisted?_enclosed (levels : Nat) (v : Value) : unlisted? levels (enclosed levels v) = some .tooNested := by
  induction levels with
  | zero => rfl
  | succ levels ih =>
    rw [enclosed, unlisted?]
    simp only [List.findSome?_cons, ih]

theorem replaceShared_enclosed {v : Value} {f : Nat → Value} (hv : v.replaceShared f = v) (levels : Nat) :
    (enclosed levels v).replaceShared f = enclosed levels v := by
  induction levels with
  | zero => exact hv
  | succ levels ih => rw [enclosed, replaceShared, replaceSharedItems, ih, replaceSharedItems]

/-- A list with too many others in it has no words. -/
theorem inWords_enclosed (v : Value) : (enclosed levelsInWords v).inWords = .error .tooNested := by
  have huntold : untold? levelsInWords (enclosed levelsInWords v) = some .tooNested :=
    unlisted?_enclosed levelsInWords v
  rw [inWords, huntold]

end Value

/-- A queue or a topic with a name that can be put into words. -/
def Object.Named : Object → Prop
  | .queue q => q.name.WordedIn (Value.levelsInWords - 1)
  | .topic t => t.name.WordedIn (Value.levelsInWords - 1)
  | .message _ => False

theorem Queue.named_worded (name : Text) (url : Value) : (Object.queue ⟨.text "queue", .text name, url⟩).Named :=
  ⟨fun _ => rfl, rfl⟩

theorem Store.expand_unshared {v : Value} (h : ∀ f, v.replaceShared f = v) (s : Store) (depth : Nat) :
    s.expand depth v = v := by
  cases depth with
  | zero => rfl
  | succ depth => exact h _

/-- A destination is told by its name alone. -/
theorem Object.Named.tellable_expand {o : Object} (h : o.Named) (s : Store) (depth : Nat) :
    (o.map (s.expand depth)).record.Tellable := by
  refine Value.tellable_of_untold? ?_
  cases o with
  | queue q =>
    change Value.untold? (Value.levelsInWords - 1) (s.expand depth q.name) = none
    rw [s.expand_unshared h.unshared]
    exact h.told
  | topic t =>
    change Value.untold? (Value.levelsInWords - 1) (s.expand depth t.name) = none
    rw [s.expand_unshared h.unshared]
    exact h.told
  | message m => exact h.elim

theorem Store.tellable_named {s : Store} {ref : Ref} {o : Object} (ho : s.object? ref = some o) (h : o.Named) :
    (s.expanded (.shared ref)).Tellable := by
  obtain ⟨depth, hdepth⟩ : ∃ depth, s.objects.length = depth + 1 :=
    Nat.exists_eq_succ_of_ne_zero (Nat.ne_of_gt (Nat.zero_lt_of_lt (List.getElem?_eq_some_iff.mp ho).1))
  have hexpanded : s.expanded (.shared ref) = (o.map (s.expand depth)).record := by
    rw [expanded, hdepth, expand, Value.replaceShared, ho]
  rw [hexpanded]
  exact h.tellable_expand s depth

/-- A text that tells of some values: it cannot be put into words only if one of them cannot. -/
def TellsOf (values : List Value) (t : Except Fault Text) : Prop :=
  ∀ f, t = .error f → ∃ v ∈ values, v.inWords = .error f

namespace TellsOf

theorem ok (t : Text) : TellsOf [] (.ok t) := by
  intro f hf
  cases hf

theorem map (v : Value) (g : Text → Text) : TellsOf [v] (v.inWords.map g) := by
  intro f hf
  cases hwords : v.inWords with
  | ok t =>
    rw [hwords] at hf
    cases hf
  | error _ =>
    rw [hwords] at hf
    cases hf
    exact ⟨v, List.mem_singleton.mpr rfl, hwords⟩

theorem wordless {values : List Value} {t : Except Fault Text} {f : Fault} (h : TellsOf values t)
    (hf : t = .error f) : f.Wordless := by
  obtain ⟨v, -, hv⟩ := h f hf
  exact Value.wordless_of_inWords hv

end TellsOf

theorem Queue.label_named (name : Text) : (Queue.named name).label = .ok ("Queue[" ++ name ++ "]") := rfl

theorem Topic.label_named (name : Text) : (Topic.named name).label = .ok ("Topic[" ++ name ++ "]") := rfl

end MessageBus
