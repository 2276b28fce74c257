import Mathlib.Data.List.Nodup
import MessageBus.Value

/-!
# Entries of dictionaries

What is found in a dictionary that was made entry by entry: under each key the last entry
(`lookup_ofEntries`), and each key once.
-/

namespace MessageBus.Value

theorem mem_store {key : Text} {v : Value} {entries : List (Value × Value)} {e : Value × Value}
    (h : e ∈ store key v entries) : e = (.text key, v) ∨ e ∈ entries := by
  induction entries with
  | nil => simpa [store] using h
  | cons first rest ih =>
    obtain ⟨k, w⟩ := first
    have hrest (hmem : e ∈ store key v rest) : e = (.text key, v) ∨ e ∈ (k, w) :: rest :=
      (ih hmem).imp_right (List.mem_cons_of_mem _)
    cases k with
    | text k =>
      rw [store] at h
      split at h
      · next hk =>
        subst hk
        exact (List.mem_cons.mp h).imp_right (List.mem_cons_of_mem _)
      · obtain rfl | h := List.mem_cons.mp h
        · simp
        · exact hrest h
    | _ =>
      obtain rfl | h := List.mem_cons.mp h
      · simp
      · exact hrest h

/-- Nothing is stored but under the key. -/
theorem mem_store_other {key : Text} (v : Value) {entries : List (Value × Value)} {e : Value × Value}
    (he : e.1 ≠ .text key) : e ∈ store key v entries ↔ e ∈ entries := by
  have hnew (w : Value) : e ≠ (.text key, w) := fun heq => he (congrArg Prod.fst heq)
  induction entries with
  | nil => simp [store, hnew v]
  | cons first rest ih =>
    obtain ⟨k, w⟩ := first
    cases k with
    | text k =>
      rw [store]
      split
      · next hk =>
        subst hk
        simp [hnew]
      · simp [ih]
    | _ => simp [store, ih]

/-- Storing one entry after another. -/
abbrev storeAll (entries : List (Text × Value)) (read : List (Value × Value)) : List (Value × Value) :=
  entries.foldl (fun read e => store e.1 e.2 read) read

theorem forall_storeAll {p : Value × Value → Prop} {entries : List (Text × Value)} {read : List (Value × Value)}
    (h : ∀ e ∈ entries, p (.text e.1, e.2)) (hread : ∀ e ∈ read, p e) : ∀ e ∈ storeAll entries read, p e := by
  induction entries generalizing read with
  | nil => exact hread
  | cons first rest ih =>
    refine ih (fun e he => h e (by simp [he])) fun e he => ?_
    obtain rfl | he := mem_store he
    · exact h first (by simp)
    · exact hread e he

theorem lookup_storeAll (key : Text) (entries : List (Text × Value)) (read : List (Value × Value)) :
    lookup key (storeAll entries read) = (entries.reverse.lookup key).or (lookup key read) := by
  induction entries generalizing read with
  | nil => rfl
  | cons e entries ih =>
    obtain ⟨k, w⟩ := e
    rw [storeAll, List.foldl_cons, ih, lookup_store, List.reverse_cons, List.lookup_append, Option.or_assoc]
    congr 1
    by_cases hkey : key = k
    · simp [hkey]
    · have hother : (key == k) = false := beq_eq_false_iff_ne.mpr hkey
      simp [hkey, List.lookup_cons, hother]

theorem lookup_ofEntries (key : Text) (entries : List (Text × Value)) :
    (ofEntries entries).field? key = entries.reverse.lookup key := by
  rw [ofEntries, field?, lookup_storeAll]
  simp [lookup]

theorem isSome_field?_of_mem {key : Text} {entries : List (Text × Value)} {v : Value}
    (h : (key, v) ∈ entries) : ((ofEntries entries).field? key).isSome := by
  rw [lookup_ofEntries, List.lookup_isSome_iff]
  exact ⟨(key, v), by simpa using h, by simp⟩

/-! ## Texts as keys, each once -/

/-- Entries with texts as keys, each of which occurs once. -/
structure Keyed (entries : List (Value × Value)) : Prop where
  texts : ∀ e ∈ entries, ∃ k, e.1 = .text k
  distinct : (entries.map (·.1)).Nodup

theorem mem_of_lookup {key : Text} {v : Value} {entries : List (Value × Value)}
    (h : lookup key entries = some v) : (.text key, v) ∈ entries := by
  induction entries with
  | nil => cases h
  | cons e rest ih =>
    obtain ⟨k, w⟩ := e
    cases k with
    | text k =>
      rw [lookup] at h
      split at h
      · next hk =>
        cases h
        rw [hk]
        exact List.mem_cons_self
      · exact List.mem_cons_of_mem _ (ih h)
    | _ => exact List.mem_cons_of_mem _ (ih h)

theorem lookup_ne_none_of_mem {key : Text} {entries : List (Value × Value)}
    (h : .text key ∈ entries.map (·.1)) : lookup key entries ≠ none := by
  induction entries with
  | nil => simp at h
  | cons e rest ih =>
    obtain ⟨k, w⟩ := e
    rw [List.map_cons, List.mem_cons] at h
    by_cases hk : k = .text key
    · rw [hk, lookup, if_pos rfl]
      simp
    · have hrest := ih (h.resolve_left (Ne.symm hk))
      cases k with
      | text k =>
        have hother : k ≠ key := fun heq => hk (by rw [heq])
        rwa [lookup, if_neg hother]
      | _ => exact hrest

/-- Where no key occurs twice, an entry is what is found under its key. -/
theorem lookup_of_mem {key : Text} {v : Value} {entries : List (Value × Value)}
    (hdistinct : (entries.map (·.1)).Nodup) (h : (.text key, v) ∈ entries) : lookup key entries = some v := by
  cases hlookup : lookup key entries with
  | none => exact absurd hlookup (lookup_ne_none_of_mem (List.mem_map_of_mem h))
  | some u =>
    have hu := mem_of_lookup hlookup
    have heq : ((.text key, u) : Value × Value) = (.text key, v) := List.inj_on_of_nodup_map hdistinct hu h rfl
    rw [(Prod.mk.inj heq).2]

theorem keys_store (key : Text) (v : Value) (entries : List (Value × Value)) :
    (store key v entries).map (·.1) =
      if (lookup key entries).isSome then entries.map (·.1) else entries.map (·.1) ++ [.text key] := by
  induction entries with
  | nil => rfl
  | cons e rest ih =>
    obtain ⟨k, w⟩ := e
    cases k with
    | text k =>
      by_cases hk : k = key
      · simp [store, lookup, hk]
      · simp only [store, lookup, hk, if_false, List.map_cons, ih]
        split <;> simp
    | _ =>
      simp only [store, lookup, List.map_cons, ih]
      split <;> simp

theorem Keyed.store {entries : List (Value × Value)} (h : Keyed entries) (key : Text) (v : Value) :
    Keyed (store key v entries) where
  texts e he := by
    obtain rfl | he := mem_store he
    · exact ⟨key, rfl⟩
    · exact h.texts e he
  distinct := by
    rw [keys_store]
    split
    · exact h.distinct
    · next hnone =>
      refine List.nodup_append.mpr ⟨h.distinct, by simp, ?_⟩
      intro k hk k' hk' heq
      rw [List.mem_singleton] at hk'
      rw [heq, hk'] at hk
      have := lookup_ne_none_of_mem hk
      simp_all

theorem keyed_ofEntries (entries : List (Text × Value)) :
    ∃ stored, ofEntries entries = .dict stored ∧ Keyed stored := by
  have hall (read : List (Value × Value)) (hread : Keyed read) : Keyed (storeAll entries read) := by
    induction entries generalizing read with
    | nil => exact hread
    | cons e rest ih => exact ih _ (hread.store e.1 e.2)
  exact ⟨_, rfl, hall [] ⟨by simp, by simp⟩⟩

theorem keyed_fields {fields : List (Text × Value)} (h : (fields.map (·.1)).Nodup) :
    Keyed (fields.map fun e => (.text e.1, e.2)) := by
  refine ⟨?_, ?_⟩
  · rintro e he
    obtain ⟨x, _, rfl⟩ := List.mem_map.mp he
    exact ⟨x.1, rfl⟩
  · have hkeys : (fields.map fun e => (Value.text e.1, e.2)).map (·.1) = (fields.map (·.1)).map .text := by
      simp [List.map_map, Function.comp_def]
    rw [hkeys]
    exact h.map fun _ _ heq => Value.text.inj heq

theorem Keyed.exists_fields {entries : List (Value × Value)} (h : Keyed entries) :
    ∃ fields : List (Text × Value), entries = fields.map (fun e => (.text e.1, e.2)) ∧
      (fields.map (·.1)).Nodup := by
  have htexts := h.texts
  obtain ⟨fields, rfl⟩ : ∃ fields : List (Text × Value), entries = fields.map fun e => (.text e.1, e.2) := by
    clear h
    induction entries with
    | nil => exact ⟨[], rfl⟩
    | cons e rest ih =>
      obtain ⟨k, hk⟩ := htexts e (by simp)
      obtain ⟨fields, rfl⟩ := ih fun e he => htexts e (by simp [he])
      exact ⟨(k, e.2) :: fields, by rw [List.map_cons, ← hk]⟩
  refine ⟨fields, rfl, ?_⟩
  have hdistinct := h.distinct
  rw [List.map_map] at hdistinct
  exact List.Nodup.of_map Value.text (by rwa [List.map_map])

theorem store_new {key : Text} {entries : List (Value × Value)} (h : lookup key entries = none) (v : Value) :
    store key v entries = entries ++ [(.text key, v)] := by
  induction entries with
  | nil => rfl
  | cons e rest ih =>
    obtain ⟨k, w⟩ := e
    cases k with
    | text k =>
      rw [lookup] at h
      split at h
      · cases h
      · next hk => rw [store, if_neg hk, ih h, List.cons_append]
    | _ => rw [store, ih h, List.cons_append]; simp

/-- Entries under distinct keys stay as they are. -/
theorem ofEntries_of_nodup {fields : List (Text × Value)} (h : (fields.map (·.1)).Nodup) :
    ofEntries fields = ofFields fields := by
  have hall (read : List (Value × Value)) (hnew : ∀ e ∈ fields, lookup e.1 read = none) :
      storeAll fields read = read ++ fields.map fun e => (.text e.1, e.2) := by
    induction fields generalizing read with
    | nil => simp
    | cons e rest ih =>
      rw [List.map_cons, List.nodup_cons] at h
      have hrest (other : Text × Value) (hother : other ∈ rest) :
          lookup other.1 (store e.1 e.2 read) = none := by
        have hne : other.1 ≠ e.1 := fun heq => h.1 (heq ▸ List.mem_map_of_mem hother)
        rw [lookup_store, if_neg hne]
        exact hnew other (by simp [hother])
      have hfold := ih h.2 _ hrest
      rw [store_new (hnew e (by simp)), List.append_assoc] at hfold
      rw [storeAll, List.foldl_cons, store_new (hnew e (by simp))]
      exact hfold
  exact congrArg Value.dict (hall [] fun _ _ => rfl)

/-- Whatever the entries, the dictionary of them has distinct keys, and holds none but their keys and values. -/
theorem exists_ofFields {p : Text × Value → Prop} {entries : List (Text × Value)} (h : ∀ e ∈ entries, p e) :
    ∃ fields, ofEntries entries = ofFields fields ∧ (fields.map (·.1)).Nodup ∧ ∀ e ∈ fields, p e := by
  obtain ⟨stored, hstored, hkeyed⟩ := keyed_ofEntries entries
  obtain ⟨fields, rfl, hkeys⟩ := hkeyed.exists_fields
  refine ⟨fields, hstored, hkeys, fun e he => ?_⟩
  have hall : ∀ e ∈ storeAll entries [], ∀ k, e.1 = .text k → p (k, e.2) :=
    forall_storeAll (fun e he k hk => Value.text.inj hk ▸ h e he) (by simp)
  have hentries : storeAll entries [] = fields.map fun e => (.text e.1, e.2) := Value.dict.inj hstored
  rw [hentries] at hall
  exact hall _ (List.mem_map_of_mem he) e.1 rfl

end MessageBus.Value
