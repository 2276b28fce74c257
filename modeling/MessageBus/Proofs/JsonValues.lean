import MessageBus.Proofs.Checks
import MessageBus.Proofs.Entries

/-!
# JSON values

A JSON value is a scalar that JSON can tell, or a list or dictionary of JSON values in which no key occurs
twice. Validation makes JSON values (`isJson_of_json`), and leaves a JSON value as it is if it nests no deeper
than validation allows (`keeps_of_isJson`).
-/

namespace MessageBus

namespace Value

/-! ## Parts -/

mutual

/-- The scalars in a value, keys among them. -/
def scalars : Value → List Value
  | .list items => scalarsOfItems items
  | .dict entries => scalarsOfEntries entries
  | v => [v]

def scalarsOfItems : List Value → List Value
  | [] => []
  | v :: vs => scalars v ++ scalarsOfItems vs

def scalarsOfEntries : List (Value × Value) → List Value
  | [] => []
  | (k, v) :: es => k :: scalars v ++ scalarsOfEntries es

end

theorem mem_scalars_list {u : Value} {items : List Value} :
    u ∈ scalars (.list items) ↔ ∃ v ∈ items, u ∈ v.scalars := by
  rw [scalars]
  induction items with
  | nil => simp [scalarsOfItems]
  | cons v vs ih => simp [scalarsOfItems, ih]

theorem mem_scalars_dict {u : Value} {entries : List (Value × Value)} :
    u ∈ scalars (.dict entries) ↔ ∃ e ∈ entries, u = e.1 ∨ u ∈ e.2.scalars := by
  rw [scalars]
  induction entries with
  | nil => simp [scalarsOfEntries]
  | cons e es ih =>
    obtain ⟨k, v⟩ := e
    simp [scalarsOfEntries, ih, or_assoc]

/-- No integer in the value has more than so many digits. -/
def IntsWithin (digits : Nat) (v : Value) : Prop :=
  ∀ n, .int n ∈ v.scalars → (Nat.toDigits 10 n.natAbs).length ≤ digits

theorem exists_intsWithin (v : Value) : ∃ digits, v.IntsWithin digits := by
  unfold IntsWithin
  induction v.scalars with
  | nil => exact ⟨0, nofun⟩
  | cons u us ih =>
    obtain ⟨digits, hdigits⟩ := ih
    cases u with
    | int m =>
      refine ⟨max digits (Nat.toDigits 10 m.natAbs).length, fun n hn => ?_⟩
      obtain hn | hn := List.mem_cons.mp hn
      · cases hn
        exact Nat.le_max_right ..
      · exact Nat.le_trans (hdigits n hn) (Nat.le_max_left ..)
    | _ => exact ⟨digits, fun n hn => hdigits n ((List.mem_cons.mp hn).resolve_left nofun)⟩

theorem IntsWithin.mono {m n : Nat} {v : Value} (h : v.IntsWithin m) (hle : m ≤ n) : v.IntsWithin n :=
  fun i hi => Nat.le_trans (h i hi) hle

/-- No text in the value holds half of a UTF-16 pair. -/
def Encodable (v : Value) : Prop := ∀ t, .text t ∈ v.scalars → ∀ c ∈ t, c.isChar = true

instance (v : Value) : Decidable v.Encodable :=
  decidable_of_iff (v.scalars.all fun
    | .text t => t.all CodePoint.isChar
    | _ => true) <| by
    rw [List.all_eq_true]
    constructor
    · intro h t ht
      exact List.all_eq_true.mp (h _ ht)
    · intro h u hu
      split
      · exact List.all_eq_true.mpr (h _ hu)
      · rfl

theorem intsWithin_list {digits : Nat} {items : List Value} :
    IntsWithin digits (.list items) ↔ ∀ v ∈ items, v.IntsWithin digits := by
  simp only [IntsWithin, mem_scalars_list]
  exact ⟨fun h v hv n hn => h n ⟨v, hv, hn⟩, fun h n ⟨v, hv, hn⟩ => h v hv n hn⟩

theorem encodable_list {items : List Value} : Encodable (.list items) ↔ ∀ v ∈ items, v.Encodable := by
  simp only [Encodable, mem_scalars_list]
  exact ⟨fun h v hv t ht => h t ⟨v, hv, ht⟩, fun h t ⟨v, hv, ht⟩ => h v hv t ht⟩

theorem mem_scalars_ofFields {u : Value} {fields : List (Text × Value)} :
    u ∈ (ofFields fields).scalars ↔ ∃ e ∈ fields, u = .text e.1 ∨ u ∈ e.2.scalars := by
  rw [ofFields, mem_scalars_dict]
  constructor
  · rintro ⟨e, he, hu⟩
    obtain ⟨field, hfield, rfl⟩ := List.mem_map.mp he
    exact ⟨field, hfield, hu⟩
  · rintro ⟨field, hfield, hu⟩
    exact ⟨_, List.mem_map_of_mem hfield, hu⟩

theorem intsWithin_ofFields {digits : Nat} {fields : List (Text × Value)} :
    IntsWithin digits (ofFields fields) ↔ ∀ e ∈ fields, e.2.IntsWithin digits := by
  simp only [IntsWithin, mem_scalars_ofFields, reduceCtorEq, false_or]
  exact ⟨fun h e he n hn => h n ⟨e, he, hn⟩, fun h n ⟨e, he, hn⟩ => h e he n hn⟩

theorem encodable_ofFields {fields : List (Text × Value)} :
    Encodable (ofFields fields) ↔ ∀ e ∈ fields, (∀ c ∈ e.1, c.isChar = true) ∧ e.2.Encodable := by
  simp only [Encodable, mem_scalars_ofFields]
  constructor
  · intro h e he
    exact ⟨h e.1 ⟨e, he, .inl rfl⟩, fun t ht => h t ⟨e, he, .inr ht⟩⟩
  · rintro h t ⟨e, he, heq | ht⟩
    · cases heq
      exact (h e he).1
    · exact (h e he).2 t ht

theorem depth_list_le {items : List Value} {n : Nat} :
    depth (.list items) ≤ n ↔ ∀ v ∈ items, v.depth < n := by
  have hitems (vs : List Value) : depthItems vs < n ↔ 0 < n ∧ ∀ v ∈ vs, v.depth < n := by
    induction vs with
    | nil => simp [depthItems]
    | cons v vs ih =>
      rw [depthItems, Nat.max_lt, ih, List.forall_mem_cons]
      exact ⟨fun ⟨hv, hn, hvs⟩ => ⟨hn, hv, hvs⟩, fun ⟨hn, hv, hvs⟩ => ⟨hv, hn, hvs⟩⟩
  cases items with
  | nil => simp [depth]
  | cons v vs =>
    have hpos (h : v.depth < n) : 0 < n := Nat.zero_lt_of_lt h
    rw [depth, Nat.add_comm, Nat.succ_le_iff, hitems]
    simp only [List.forall_mem_cons]
    exact and_iff_right_of_imp fun h => hpos h.1

theorem depth_dict_le {entries : List (Value × Value)} {n : Nat} :
    depth (.dict entries) ≤ n ↔ ∀ e ∈ entries, e.2.depth < n := by
  have hentries (es : List (Value × Value)) : depthEntries es < n ↔ 0 < n ∧ ∀ e ∈ es, e.2.depth < n := by
    induction es with
    | nil => simp [depthEntries]
    | cons e es ih =>
      rw [depthEntries, Nat.max_lt, ih, List.forall_mem_cons]
      exact ⟨fun ⟨he, hn, hes⟩ => ⟨hn, he, hes⟩, fun ⟨hn, he, hes⟩ => ⟨he, hn, hes⟩⟩
  cases entries with
  | nil => simp [depth]
  | cons e es =>
    have hpos (h : e.2.depth < n) : 0 < n := Nat.zero_lt_of_lt h
    rw [depth, Nat.add_comm, Nat.succ_le_iff, hentries]
    simp only [List.forall_mem_cons]
    exact and_iff_right_of_imp fun h => hpos h.1

theorem depth_ofFields_le {fields : List (Text × Value)} {n : Nat} :
    depth (ofFields fields) ≤ n ↔ ∀ e ∈ fields, e.2.depth < n := by
  rw [ofFields, depth_dict_le, List.forall_mem_map]

/-! ## JSON -/

/-- The values that JSON can tell, with each key of a dictionary once. -/
inductive IsJson : Value → Prop where
  | null : IsJson .null
  | bool (b : Bool) : IsJson (.bool b)
  | int (n : Int) : IsJson (.int n)
  | float {x : Double} (hx : x.isFinite = true) : IsJson (.float x)
  | text (t : Text) : IsJson (.text t)
  | list {items : List Value} (h : ∀ v ∈ items, IsJson v) : IsJson (.list items)
  | dict {fields : List (Text × Value)} (hkeys : (fields.map (·.1)).Nodup) (h : ∀ e ∈ fields, IsJson e.2) :
      IsJson (ofFields fields)

end Value

namespace Check

open Value

mutual

/-- Validation with so many levels makes JSON values that nest no deeper. -/
theorem isJson_of_json {levels : Nat} {v x : Value} (h : json levels v = .ok x) : IsJson x ∧ x.depth ≤ levels := by
  cases v with
  | null =>
    cases h
    exact ⟨.null, Nat.zero_le levels⟩
  | bool b =>
    cases h
    exact ⟨.bool b, Nat.zero_le levels⟩
  | int n =>
    cases h
    exact ⟨.int n, Nat.zero_le levels⟩
  | float d =>
    rw [json] at h
    split at h
    · next hd =>
      cases h
      exact ⟨.float hd, Nat.zero_le levels⟩
    · cases h
  | text t =>
    cases h
    exact ⟨.text t, Nat.zero_le levels⟩
  | list items =>
    rw [json] at h
    obtain ⟨xs, hxs, rfl⟩ := map_eq_ok.mp (Checked.under_eq_ok.mp h)
    have hall := isJson_of_jsonItems hxs
    exact ⟨.list fun x hx => (hall x hx).1, depth_list_le.mpr fun x hx => (hall x hx).2⟩
  | dict entries =>
    rw [json] at h
    obtain ⟨xs, hxs, rfl⟩ := map_eq_ok.mp (Checked.under_eq_ok.mp h)
    obtain ⟨fields, hfields, hkeys, hall⟩ :=
      exists_ofFields (p := fun e => IsJson e.2 ∧ e.2.depth < levels) (isJson_of_jsonEntries hxs)
    rw [hfields]
    exact ⟨.dict hkeys fun e he => (hall e he).1, depth_ofFields_le.mpr fun e he => (hall e he).2⟩
  | bytes => cases h
  | tuple => cases h
  | set => cases h
  | record => cases h
  | shared => cases h
  | object => cases h

theorem isJson_of_jsonItems {levels i : Nat} {vs xs : List Value} (h : jsonItems levels i vs = .ok xs) :
    ∀ x ∈ xs, IsJson x ∧ x.depth < levels := by
  cases vs with
  | nil =>
    cases levels <;> cases h <;> simp
  | cons v vs =>
    cases levels with
    | zero =>
      rw [jsonItems] at h
      obtain ⟨_, _, hdeep, _⟩ := Checked.both_eq_ok.mp h
      cases hdeep
    | succ levels =>
      rw [jsonItems] at h
      obtain ⟨x, rest, hx, hrest, rfl⟩ := Checked.both_eq_ok.mp h
      rw [List.forall_mem_cons]
      exact ⟨(isJson_of_json (Checked.under_eq_ok.mp hx)).imp_right Nat.lt_succ_of_le, isJson_of_jsonItems hrest⟩

theorem isJson_of_jsonEntries {levels : Nat} {es : List (Value × Value)} {xs : List (Text × Value)}
    (h : jsonEntries levels es = .ok xs) : ∀ x ∈ xs, IsJson x.2 ∧ x.2.depth < levels := by
  cases es with
  | nil => cases levels <;> cases h <;> simp
  | cons e es =>
    obtain ⟨k, v⟩ := e
    cases levels with
    | zero =>
      rw [jsonEntries] at h
      obtain ⟨_, _, hentry, _⟩ := Checked.both_eq_ok.mp h
      obtain ⟨_, _, _, hdeep, _⟩ := Checked.both_eq_ok.mp hentry
      cases hdeep
    | succ levels =>
      rw [jsonEntries] at h
      obtain ⟨_, rest, hentry, hrest, rfl⟩ := Checked.both_eq_ok.mp h
      obtain ⟨_, x, _, hx, rfl⟩ := Checked.both_eq_ok.mp hentry
      rw [List.forall_mem_cons]
      exact ⟨(isJson_of_json (Checked.under_eq_ok.mp hx)).imp_right Nat.lt_succ_of_le,
        isJson_of_jsonEntries hrest⟩

end

/-! ## Validation of what is valid -/

/-- Validation with so many levels lets a value through as it is, and only if it nests no deeper. -/
def Keeps (v : Value) : Prop := ∀ levels x, json levels v = .ok x ↔ v.depth ≤ levels ∧ x = v

theorem jsonItems_eq_ok {levels i : Nat} {items xs : List Value} (h : ∀ v ∈ items, Keeps v) :
    jsonItems levels i items = .ok xs ↔ (∀ v ∈ items, v.depth < levels) ∧ xs = items := by
  induction items generalizing i xs with
  | nil => cases levels <;> simp [jsonItems, eq_comm]
  | cons v vs ih =>
    rw [List.forall_mem_cons] at h
    rw [List.forall_mem_cons]
    cases levels with
    | zero => simp [jsonItems, Checked.both_eq_ok, Checked.under_eq_ok, Checked.fail]
    | succ levels =>
      simp only [jsonItems, Checked.both_eq_ok, Checked.under_eq_ok, h.1 levels _, ih h.2, Nat.lt_succ_iff]
      constructor
      · rintro ⟨_, _, ⟨hv, rfl⟩, ⟨hvs, rfl⟩, rfl⟩
        exact ⟨⟨hv, hvs⟩, rfl⟩
      · rintro ⟨⟨hv, hvs⟩, rfl⟩
        exact ⟨v, vs, ⟨hv, rfl⟩, ⟨hvs, rfl⟩, rfl⟩

theorem jsonEntries_eq_ok {levels : Nat} {fields xs : List (Text × Value)} (h : ∀ e ∈ fields, Keeps e.2) :
    jsonEntries levels (fields.map fun e => (.text e.1, e.2)) = .ok xs ↔
      (∀ e ∈ fields, e.2.depth < levels) ∧ xs = fields := by
  induction fields generalizing xs with
  | nil => cases levels <;> simp [jsonEntries, eq_comm]
  | cons e es ih =>
    obtain ⟨k, v⟩ := e
    rw [List.forall_mem_cons] at h
    rw [List.forall_mem_cons, List.map_cons]
    cases levels with
    | zero => simp [jsonEntries, Checked.both_eq_ok, Checked.under_eq_ok, Checked.fail]
    | succ levels =>
      have hkey (t : Text) : key (.text k) = .ok t ↔ t = k := by
        rw [key, Checked.under_eq_ok, text, Except.ok.injEq, eq_comm]
      simp only [jsonEntries, Checked.both_eq_ok, Checked.under_eq_ok, h.1 levels _, ih h.2, hkey, Nat.lt_succ_iff]
      constructor
      · rintro ⟨_, _, ⟨_, _, rfl, ⟨hv, rfl⟩, rfl⟩, ⟨hes, rfl⟩, rfl⟩
        exact ⟨⟨hv, hes⟩, rfl⟩
      · rintro ⟨⟨hv, hes⟩, rfl⟩
        exact ⟨(k, v), es, ⟨k, v, rfl, ⟨hv, rfl⟩, rfl⟩, ⟨hes, rfl⟩, rfl⟩

theorem keeps_of_isJson {v : Value} (h : IsJson v) : Keeps v := by
  induction h with
  | null => intro levels x; simp [json, depth, eq_comm]
  | bool b => intro levels x; simp [json, depth, eq_comm]
  | int n => intro levels x; simp [json, depth, eq_comm]
  | float hx => intro levels x; simp [json, depth, hx, eq_comm]
  | text t => intro levels x; simp [json, depth, eq_comm]
  | list _ ih =>
    intro levels x
    rw [json, Checked.under_eq_ok, map_eq_ok, depth_list_le]
    simp only [jsonItems_eq_ok ih]
    constructor
    · rintro ⟨_, ⟨hdepth, rfl⟩, rfl⟩
      exact ⟨hdepth, rfl⟩
    · rintro ⟨hdepth, rfl⟩
      exact ⟨_, ⟨hdepth, rfl⟩, rfl⟩
  | @dict fields hkeys _ ih =>
    intro levels x
    rw [depth_ofFields_le, ofFields, json, Checked.under_eq_ok, map_eq_ok]
    simp only [jsonEntries_eq_ok ih]
    constructor
    · rintro ⟨_, ⟨hdepth, rfl⟩, rfl⟩
      exact ⟨hdepth, ofEntries_of_nodup hkeys⟩
    · rintro ⟨hdepth, rfl⟩
      exact ⟨_, ⟨hdepth, rfl⟩, ofEntries_of_nodup hkeys⟩

end Check

end MessageBus
