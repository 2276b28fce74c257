import Mathlib.Data.List.Perm.Subperm
import MessageBus.Proofs.Bare

/-!
# What equal values share

Values that are equal need not be the same: `1`, `1.0` and `true` are equal. Equal values count as true
together, a text and `null` equal themselves only, and in equal dictionaries equal values stand under each
key.
-/

namespace MessageBus.Value

/-! ## Scalars -/

theorem eq_null_of_same {v : Value} (h : same .null v = true) : v = .null := by
  cases v <;> simp_all [same, isNull]

theorem eq_text_of_same {t : Text} {v : Value} (h : same (.text t) v = true) : v = .text t := by
  cases v with
  | text u =>
    rw [same, beq_iff_eq] at h
    rw [h]
  | _ => simp [same] at h

theorem same_text (t : Text) : same (.text t) (.text t) = true := by
  rw [same, beq_self_eq_true]

theorem eq_of_same_bool {a b : Bool} (h : same (.bool a) (.bool b) = true) : a = b := by
  cases a <;> cases b <;> simp_all [same, sameNumber, toRat?]

theorem eq_of_same_int {m n : Int} (h : same (.int m) (.int n) = true) : m = n := by
  simpa [same, sameNumber, toRat?] using h

/-- The numbers and booleans. -/
def IsNumber : Value → Prop
  | .bool _ | .int _ | .float _ => True
  | _ => False

theorem truthy_of_number {v : Value} (h : IsNumber v) : v.truthy = (v.toRat? != some 0) := by
  cases v with
  | bool b => cases b <;> rfl
  | int n =>
    by_cases hn : n = 0
    · rw [hn]
      rfl
    · have hrat : (n : Rat) ≠ 0 := fun hzero => hn (by exact_mod_cast hzero)
      rw [truthy, toRat?, bne_iff_ne.mpr hn, bne_iff_ne.mpr fun heq => hrat (Option.some.inj heq)]
  | float x => rfl
  | _ => cases h

/-- Numbers are equal to numbers only, and to those that denote the same; infinities denote nothing. -/
theorem toRat?_of_sameNumber {a b : Value} (h : sameNumber a b = true) : IsNumber b ∧ a.toRat? = b.toRat? := by
  unfold sameNumber at h
  split at h
  · exact ⟨trivial, rfl⟩
  · split at h
    · next x y hx hy =>
      rw [beq_iff_eq] at h
      refine ⟨?_, by rw [hx, hy, h]⟩
      cases b <;> trivial
    · cases h

theorem isEmpty_of_sameItems {xs ys : List Value} (h : sameItems xs ys = true) : xs.isEmpty = ys.isEmpty := by
  cases xs <;> cases ys <;> simp_all [sameItems]

theorem truthy_of_same {a b : Value} (h : same a b = true) : a.truthy = b.truthy := by
  have hnumber (ha : IsNumber a) (hsame : same a b = sameNumber a b) : a.truthy = b.truthy := by
    obtain ⟨hb, hrat⟩ := toRat?_of_sameNumber (hsame ▸ h)
    rw [truthy_of_number ha, truthy_of_number hb, hrat]
  cases a with
  | null => rw [eq_null_of_same h]
  | bool x => exact hnumber trivial (by rw [same])
  | int n => exact hnumber trivial (by rw [same])
  | float x => exact hnumber trivial (by rw [same])
  | text t => rw [eq_text_of_same h]
  | bytes x =>
    cases b with
    | bytes y =>
      rw [same, beq_iff_eq] at h
      rw [h]
    | _ => simp [same] at h
  | list xs =>
    cases b with
    | list ys =>
      rw [same] at h
      exact congrArg not (isEmpty_of_sameItems h)
    | _ => simp [same] at h
  | tuple xs =>
    cases b with
    | tuple ys =>
      rw [same] at h
      exact congrArg not (isEmpty_of_sameItems h)
    | _ => simp [same] at h
  | set xs =>
    cases b with
    | set ys =>
      rw [same, Bool.and_eq_true, beq_iff_eq] at h
      cases xs <;> cases ys <;> simp_all [truthy]
    | _ => simp [same] at h
  | dict xs =>
    cases b with
    | dict ys =>
      rw [same, Bool.and_eq_true, beq_iff_eq] at h
      cases xs <;> cases ys <;> simp_all [truthy]
    | _ => simp [same] at h
  | record => simp [same] at h
  | shared => simp [same] at h
  | object => simp [same] at h

/-! ## Dictionaries -/

theorem allEntriesAmong_iff {xs ys : List (Value × Value)} :
    allEntriesAmong xs ys = true ↔ ∀ x ∈ xs, ∃ y ∈ ys, same x.1 y.1 = true ∧ same x.2 y.2 = true := by
  induction xs with
  | nil => simp [allEntriesAmong]
  | cons x xs ih =>
    obtain ⟨k, v⟩ := x
    simp [allEntriesAmong, ih]

/-- Entries that equal others with texts as keys have the same keys: the keys of the one are among those of
the other, and there are as many of them. -/
theorem keys_of_same {xs ys : List (Value × Value)} (hxs : Keyed xs) (h : same (.dict xs) (.dict ys) = true) :
    (xs.map (·.1)).Perm (ys.map (·.1)) := by
  rw [same, Bool.and_eq_true, beq_iff_eq, allEntriesAmong_iff] at h
  obtain ⟨hlength, hamong⟩ := h
  have hsubset : xs.map (·.1) ⊆ ys.map (·.1) := by
    intro key hkey
    obtain ⟨x, hx, rfl⟩ := List.mem_map.mp hkey
    obtain ⟨k, hk⟩ := hxs.texts x hx
    obtain ⟨y, hy, hsame, _⟩ := hamong x hx
    rw [hk] at hsame ⊢
    rw [← eq_text_of_same hsame]
    exact List.mem_map_of_mem hy
  exact (hxs.distinct.subperm hsubset).perm_of_length_le (by simp [hlength])

theorem Keyed.of_same {xs ys : List (Value × Value)} (hxs : Keyed xs) (h : same (.dict xs) (.dict ys) = true) :
    Keyed ys := by
  have hperm := keys_of_same hxs h
  refine ⟨fun y hy => ?_, hperm.nodup_iff.mp hxs.distinct⟩
  obtain ⟨x, hx, heq⟩ := List.mem_map.mp (hperm.mem_iff.mpr (List.mem_map_of_mem hy))
  obtain ⟨k, hk⟩ := hxs.texts x hx
  exact ⟨k, by rw [← heq, hk]⟩

/-- Both lookups fail, or both find something, and this is equal. -/
def Alike (a b : Option Value) : Prop :=
  match a, b with
  | none, none => True
  | some v, some u => same v u = true
  | _, _ => False

theorem lookup_of_same {xs ys : List (Value × Value)} (hxs : Keyed xs)
    (h : same (.dict xs) (.dict ys) = true) (key : Text) : Alike (lookup key xs) (lookup key ys) := by
  have hperm := keys_of_same hxs h
  have hys := hxs.of_same h
  rw [same, Bool.and_eq_true, allEntriesAmong_iff] at h
  cases hx : lookup key xs with
  | none =>
    cases hy : lookup key ys with
    | none => trivial
    | some u =>
      have hmem : Value.text key ∈ xs.map (·.1) := hperm.mem_iff.mpr (List.mem_map_of_mem (mem_of_lookup hy))
      exact absurd hx (lookup_ne_none_of_mem hmem)
  | some v =>
    obtain ⟨⟨k, u⟩, hmem, hkey, hvalue⟩ := h.2 _ (mem_of_lookup hx)
    have hk : k = .text key := eq_text_of_same hkey
    rw [hk] at hmem
    rw [lookup_of_mem hys.distinct hmem]
    exact hvalue

/-- Dictionaries with as many entries are equal when equal values stand under each key. -/
theorem same_of_lookup {xs ys : List (Value × Value)} (hxs : Keyed xs) (hlength : xs.length = ys.length)
    (h : ∀ key, Alike (lookup key xs) (lookup key ys)) : same (.dict xs) (.dict ys) = true := by
  rw [same, Bool.and_eq_true, beq_iff_eq, allEntriesAmong_iff]
  refine ⟨hlength, ?_⟩
  rintro ⟨k, v⟩ hmem
  obtain ⟨key, rfl⟩ := hxs.texts _ hmem
  have hkey := h key
  rw [lookup_of_mem hxs.distinct hmem] at hkey
  cases hy : lookup key ys with
  | none => rw [hy] at hkey; exact hkey.elim
  | some u =>
    rw [hy] at hkey
    exact ⟨_, mem_of_lookup hy, same_text key, hkey⟩

theorem Alike.isSome {a b : Option Value} (h : Alike a b) : a.isSome = b.isSome := by
  cases a <;> cases b <;> first | rfl | exact h.elim

/-- Equal dictionaries stay equal when equal values are stored. -/
theorem same_store {xs ys : List (Value × Value)} (hxs : Keyed xs) (h : same (.dict xs) (.dict ys) = true)
    (key : Text) {v u : Value} (hvalue : same v u = true) :
    same (.dict (store key v xs)) (.dict (store key u ys)) = true := by
  have hlookup := lookup_of_same hxs h
  have hlength : xs.length = ys.length := by
    rw [same, Bool.and_eq_true, beq_iff_eq] at h
    exact h.1
  have hkeys (w : Value) (entries : List (Value × Value)) :
      (store key w entries).length =
        if (lookup key entries).isSome then entries.length else entries.length + 1 := by
    have hstore := congrArg List.length (keys_store key w entries)
    rw [List.length_map] at hstore
    rw [hstore]
    split <;> simp
  refine same_of_lookup (hxs.store key v) ?_ fun other => ?_
  · rw [hkeys, hkeys, (hlookup key).isSome, hlength]
  · rw [lookup_store, lookup_store]
    split
    · exact hvalue
    · exact hlookup other

/-- A JSON value equals itself: none of its numbers is NaN. -/
theorem IsJson.same {v : Value} (h : IsJson v) : same v v = true := by
  induction h with
  | null => rw [Value.same, isNull]
  | bool b => simp [Value.same, sameNumber, toRat?]
  | int n => simp [Value.same, sameNumber, toRat?]
  | @float x hx =>
    cases x with
    | finite => simp only [Value.same, sameNumber, toRat?, Double.toRat?, beq_self_eq_true]
    | _ => cases hx
  | text t => exact same_text t
  | @list items _ ih =>
    rw [Value.same]
    induction items with
    | nil => rw [sameItems]
    | cons v vs hvs =>
      rw [List.forall_mem_cons] at ih
      rw [sameItems, ih.1, Bool.true_and]
      exact hvs (fun u hu => by simp_all) ih.2
  | dict hkeys _ ih =>
    refine same_of_lookup (keyed_fields hkeys) rfl fun key => ?_
    cases hlookup : lookup key _ with
    | none => trivial
    | some v =>
      obtain ⟨e, he, heq⟩ := List.mem_map.mp (mem_of_lookup hlookup)
      rw [Prod.mk.injEq] at heq
      exact heq.2 ▸ ih e he

/-! ## Values told by their data -/

theorem lookup_map (f : Value → Value) (key : Text) (entries : List (Value × Value)) :
    lookup key (entries.map fun e => (e.1, f e.2)) = (lookup key entries).map f := by
  induction entries with
  | nil => rfl
  | cons e rest ih =>
    obtain ⟨k, v⟩ := e
    cases k with
    | text k =>
      rw [List.map_cons, lookup, lookup, ih]
      split <;> rfl
    | _ => exact ih

end MessageBus.Value

namespace MessageBus.Store

theorem expanded_dict (s : Store) (entries : List (Value × Value)) :
    s.expanded (.dict entries) = .dict (entries.map fun e => (e.1, s.expanded e.2)) := by
  unfold expanded
  cases s.objects.length with
  | zero => simp [expand]
  | succ n => rw [expand, Value.replaceShared, Value.replaceSharedEntries_eq]; rfl

theorem told_dict (s : Store) (entries : List (Value × Value)) :
    s.told (.dict entries) = .dict (entries.map fun e => (e.1, s.told e.2)) := by
  rw [told, expanded_dict, Value.data, Value.dataEntries_eq, List.map_map]
  rfl

theorem told_shared (s : Store) (ref : Ref) :
    s.told (.shared ref) = .shared ref ∨ ∃ e entries, s.told (.shared ref) = .dict (e :: entries) := by
  unfold told expanded
  cases s.objects.length with
  | zero => exact .inl rfl
  | succ n =>
    rw [expand, Value.replaceShared]
    cases s.object? ref with
    | none => exact .inl rfl
    | some o => cases o <;> exact .inr ⟨_, _, rfl⟩

theorem told_list (s : Store) (items : List Value) :
    ∃ told, s.told (.list items) = .list told ∧ told.isEmpty = items.isEmpty := by
  unfold told expanded
  cases s.objects.length <;> cases items <;> exact ⟨_, rfl, rfl⟩

theorem told_tuple (s : Store) (items : List Value) :
    ∃ told, s.told (.tuple items) = .tuple told ∧ told.isEmpty = items.isEmpty := by
  unfold told expanded
  cases s.objects.length <;> cases items <;> exact ⟨_, rfl, rfl⟩

theorem told_set (s : Store) (items : List Value) :
    ∃ told, s.told (.set items) = .set told ∧ told.isEmpty = items.isEmpty := by
  unfold told expanded
  cases s.objects.length <;> cases items <;> exact ⟨_, rfl, rfl⟩

theorem told_record (s : Store) (type : ObjectType) (fields : List (Text × Value)) :
    ∃ told, s.told (.record type fields) = .dict told ∧ told.isEmpty = fields.isEmpty := by
  unfold told expanded
  cases s.objects.length <;> cases fields <;> exact ⟨_, rfl, rfl⟩

/-- Whether a value counts as true does not change when its objects are told, which all have fields. -/
theorem truthy_told (s : Store) {v : Value} (h : ∀ type, v ≠ .record type []) :
    (s.told v).truthy = v.truthy := by
  cases v with
  | null => rw [told_of_bare Value.bare_null]
  | bool b => rw [told_of_bare (Value.bare_bool b)]
  | int n => rw [told_of_bare (Value.bare_int n)]
  | float x => rw [told_of_bare (Value.bare_float x)]
  | text t => rw [told_of_bare (Value.bare_text t)]
  | bytes octets => rw [told_of_bare (Value.bare_bytes octets)]
  | object => rw [told_of_bare Value.bare_object]
  | list items =>
    obtain ⟨told, htold, hempty⟩ := told_list s items
    rw [htold, Value.truthy, Value.truthy, hempty]
  | tuple items =>
    obtain ⟨told, htold, hempty⟩ := told_tuple s items
    rw [htold, Value.truthy, Value.truthy, hempty]
  | set items =>
    obtain ⟨told, htold, hempty⟩ := told_set s items
    rw [htold, Value.truthy, Value.truthy, hempty]
  | dict entries =>
    rw [told_dict, Value.truthy, Value.truthy, List.isEmpty_map]
  | record type fields =>
    obtain ⟨told, htold, hempty⟩ := told_record s type fields
    cases fields with
    | nil => exact absurd rfl (h type)
    | cons field fields =>
      rw [htold, Value.truthy, Value.truthy, hempty]
      rfl
  | shared ref =>
    obtain htold | ⟨e, entries, htold⟩ := told_shared s ref
    · rw [htold]
    · rw [htold]
      rfl

/-- A value told by a text or `null` is that itself: what has parts keeps some. -/
theorem eq_of_told {s : Store} {v u : Value} (h : s.told v = u)
    (hu : u = .null ∨ ∃ t, u = .text t) : v = u := by
  cases v with
  | null => rw [← h, told_of_bare Value.bare_null]
  | bool b => rw [← h, told_of_bare (Value.bare_bool b)]
  | int n => rw [← h, told_of_bare (Value.bare_int n)]
  | float x => rw [← h, told_of_bare (Value.bare_float x)]
  | text t => rw [← h, told_of_bare (Value.bare_text t)]
  | bytes octets => rw [← h, told_of_bare (Value.bare_bytes octets)]
  | object => rw [← h, told_of_bare Value.bare_object]
  | list items =>
    obtain ⟨told, htold, _⟩ := told_list s items
    obtain rfl | ⟨t, rfl⟩ := hu <;> rw [htold] at h <;> cases h
  | tuple items =>
    obtain ⟨told, htold, _⟩ := told_tuple s items
    obtain rfl | ⟨t, rfl⟩ := hu <;> rw [htold] at h <;> cases h
  | set items =>
    obtain ⟨told, htold, _⟩ := told_set s items
    obtain rfl | ⟨t, rfl⟩ := hu <;> rw [htold] at h <;> cases h
  | dict entries =>
    obtain rfl | ⟨t, rfl⟩ := hu <;> rw [told_dict] at h <;> cases h
  | record type fields =>
    obtain ⟨told, htold, _⟩ := told_record s type fields
    obtain rfl | ⟨t, rfl⟩ := hu <;> rw [htold] at h <;> cases h
  | shared ref =>
    obtain htold | ⟨e, entries, htold⟩ := told_shared s ref
    · obtain rfl | ⟨t, rfl⟩ := hu <;> rw [htold] at h <;> cases h
    · obtain rfl | ⟨t, rfl⟩ := hu <;> rw [htold] at h <;> cases h

end MessageBus.Store
