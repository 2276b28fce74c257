import MessageBus.Proofs.Grammar
import MessageBus.Proofs.JsonValues

/-!
# Written values that read back

The text that is written of a JSON value spells this value (`readsBack_of_isJson`): a reader that allows as
many levels as the value nests, and as many digits as its integers have, reads it back as it was, whatever
stands behind it. A container is written in the grammar of its layer, without blanks.
-/

namespace MessageBus.Json

variable {limits : Limits} {levels : Nat} {t : Text} {v : Value}

/-- The text is read as `v` by a reader with so many levels, whatever ends it. -/
def Spells (limits : Limits) (levels : Nat) (t : Text) (v : Value) : Prop := ReadAs (readValue limits levels) t v

theorem spells_scalar (h : ∀ inside ⦃rest⦄, Stops rest → readLayer limits inside (t ++ rest) = .ok (v, rest)) :
    Spells limits levels t v := by
  obtain ⟨inside, hinside⟩ := exists_readLayer limits levels
  intro rest hrest
  rw [hinside]
  exact h inside hrest

theorem spells_list {items : List Value} {ts : List Text}
    (h : List.Forall₂ (fun v t => Spells limits levels t v) items ts) :
    Spells limits (levels + 1) (bracketed '[' ']' ts) (.list items) := by
  have hinside := opening_readValue limits levels
  cases h with
  | nil => exact readAs_list hinside (.empty blanks_nil)
  | @cons v t items ts hv hitems =>
    have hall : List.Forall₂ _ (v :: items) (t :: ts) := .cons hv hitems
    exact readAs_list hinside (.parts (List.cons_ne_nil v items) (hall.imp fun _ _ => Item.of_readAs))

/-- The text of an entry. -/
def Enters (limits : Limits) (levels : Nat) (e : Text × Value) (t : Text) : Prop :=
  ∃ u, t = quote e.1 ++ .char ':' :: u ∧ Spells limits levels u e.2

theorem spellsKey_quote (k : Text) : SpellsKey (k.flatMap escaped ++ [.char '"']) k := by
  intro opening rest
  rw [List.append_assoc]
  exact readText_quote opening k rest

theorem Enters.entry {e : Text × Value} (h : Enters limits levels e t) : Entry (readValue limits levels) e t := by
  obtain ⟨u, rfl, hu⟩ := h
  exact ⟨[], _, [], u, rfl, blanks_nil, spellsKey_quote e.1, blanks_nil, .of_readAs hu⟩

theorem spells_dict {fields : List (Text × Value)} {ts : List Text}
    (h : List.Forall₂ (Enters limits levels) fields ts) :
    Spells limits (levels + 1) (bracketed '\x7b' '\x7d' ts) (Value.ofEntries fields) := by
  have hinside := opening_readValue limits levels
  cases h with
  | nil => exact readAs_dict hinside (.empty blanks_nil)
  | @cons e t fields ts he hentries =>
    have hall : List.Forall₂ _ (e :: fields) (t :: ts) := .cons he hentries
    exact readAs_dict hinside (.parts (List.cons_ne_nil e fields) (hall.imp fun _ _ => Enters.entry))

/-! ## What is written -/

/-- The text is written of the value by a writer with enough levels. -/
def Writes (v : Value) (t : Text) : Prop := ∃ levels, writeValue levels v = .ok t

theorem writes_items {items : List Value} {ts : List Text} (h : writeItems levels items = .ok ts) :
    List.Forall₂ Writes items ts := by
  induction items generalizing ts with
  | nil =>
    cases levels <;> cases h <;> exact .nil
  | cons v vs ih =>
    cases levels with
    | zero => cases h
    | succ levels =>
      rw [writeItems] at h
      obtain ⟨t, ht, h⟩ := bind_eq_ok.mp h
      obtain ⟨ts, hts, h⟩ := bind_eq_ok.mp h
      cases h
      exact .cons ⟨levels, ht⟩ (ih hts)

/-- The text of an entry that is written with a key and the value under it. -/
def WritesEntry (key : Text → Text) (e : Text × Value) (t : Text) : Prop :=
  ∃ u, t = quote (key e.1) ++ .char ':' :: u ∧ Writes e.2 u

theorem writes_entries {writeKey : Value → Except Unwritable Text} {key : Text → Text}
    (hkey : ∀ {k t}, writeKey (.text k) = .ok t → t = quote (key k)) {fields : List (Text × Value)}
    {ts : List Text} (h : writeEntries writeKey levels (fields.map fun e => (.text e.1, e.2)) = .ok ts) :
    List.Forall₂ (WritesEntry key) fields ts := by
  induction fields generalizing ts with
  | nil =>
    cases levels <;> cases h <;> exact .nil
  | cons e es ih =>
    rw [List.map_cons] at h
    cases levels with
    | zero =>
      rw [writeEntries] at h
      obtain ⟨_, _, h⟩ := bind_eq_ok.mp h
      cases h
    | succ levels =>
      rw [writeEntries] at h
      obtain ⟨k, hk, h⟩ := bind_eq_ok.mp h
      obtain ⟨t, ht, h⟩ := bind_eq_ok.mp h
      obtain ⟨ts, hts, h⟩ := bind_eq_ok.mp h
      cases h
      cases hkey hk
      exact .cons ⟨t, rfl, levels, ht⟩ (ih hts)

theorem writeText_eq_ok {u : Text} : writeText u = .ok t ↔ (∀ c ∈ u, c.isChar = true) ∧ t = quote u := by
  rw [writeText, ← Text.unencodable?_eq_none_iff]
  cases u.unencodable? <;> simp [eq_comm]

theorem writeKey_eq_ok {u : Text} : writeKey (.text u) = .ok t ↔ (∀ c ∈ u, c.isChar = true) ∧ t = quote u := by
  rw [writeKey, keyText, ← writeText_eq_ok]
  rfl

/-- What is written of the value spells it, to a reader with enough levels and digits. -/
def ReadsBack (v : Value) : Prop :=
  ∀ ⦃limits : Limits⦄ ⦃levels : Nat⦄ ⦃t : Text⦄, Writes v t → v.depth ≤ levels → v.IntsWithin limits.digits →
    Spells limits levels t v

theorem readsBack_list {items : List Value} (h : ∀ v ∈ items, ReadsBack v) : ReadsBack (.list items) := by
  rintro limits levels t ⟨w, hwrite⟩ hdepth hdigits
  rw [writeValue] at hwrite
  obtain ⟨ts, hts, hwrite⟩ := bind_eq_ok.mp hwrite
  cases hwrite
  rw [Value.depth_list_le] at hdepth
  rw [Value.intsWithin_list] at hdigits
  have hitems := writes_items hts
  cases levels with
  | zero =>
    cases hitems with
    | nil => exact spells_scalar fun _ _ _ => rfl
    | cons _ _ => exact absurd (hdepth _ List.mem_cons_self) (Nat.not_lt_zero _)
  | succ levels =>
    have hread : ∀ v ∈ items, ∀ t, Writes v t → Spells limits levels t v := fun v hv t ht =>
      h v hv ht (Nat.le_of_lt_succ (hdepth v hv)) (hdigits v hv)
    exact spells_list (((List.forall₂_and_left items ts).mpr ⟨hread, hitems⟩).imp fun v t h => h.1 t h.2)

/-- The entries of a dictionary are read under the keys that were written. -/
theorem spells_entries {key : Text → Text} {fields : List (Text × Value)} {ts : List Text}
    (h : ∀ e ∈ fields, ReadsBack e.2) (hentries : List.Forall₂ (WritesEntry key) fields ts)
    (hdepth : ∀ e ∈ fields, e.2.depth < levels) (hdigits : ∀ e ∈ fields, e.2.IntsWithin limits.digits) :
    Spells limits levels (bracketed '\x7b' '\x7d' ts)
      (Value.ofEntries (fields.map fun e => (key e.1, e.2))) := by
  cases levels with
  | zero =>
    cases hentries with
    | nil => exact spells_scalar fun _ _ _ => rfl
    | cons _ _ => exact absurd (hdepth _ List.mem_cons_self) (Nat.not_lt_zero _)
  | succ levels =>
    have hread : ∀ e ∈ fields, ∀ t, Writes e.2 t → Spells limits levels t e.2 := fun e he t ht =>
      h e he ht (Nat.le_of_lt_succ (hdepth e he)) (hdigits e he)
    refine spells_dict (List.forall₂_map_left_iff.mpr ?_)
    refine ((List.forall₂_and_left fields ts).mpr ⟨hread, hentries⟩).imp ?_
    rintro e _ ⟨he, u, rfl, hu⟩
    exact ⟨u, rfl, he u hu⟩

theorem readsBack_of_isJson (h : Value.IsJson v) : ReadsBack v := by
  induction h with
  | null =>
    rintro limits levels t ⟨w, hwrite⟩ _ _
    cases hwrite
    exact spells_scalar fun _ _ _ => rfl
  | bool b =>
    rintro limits levels t ⟨w, hwrite⟩ _ _
    cases b <;> cases hwrite <;> exact spells_scalar fun _ _ _ => rfl
  | int n =>
    rintro limits levels t ⟨w, hwrite⟩ _ hdigits
    cases hwrite
    refine spells_scalar fun inside rest hrest => ?_
    have hcount := hdigits n (by simp [Value.scalars])
    rw [readLayer_ofInt inside n hrest, if_neg (by omega)]
  | float hx =>
    rintro limits levels t ⟨w, hwrite⟩ _ _
    cases hwrite
    exact spells_scalar fun inside _ hrest => readLayer_writeFloat inside hx hrest
  | text u =>
    rintro limits levels t ⟨w, hwrite⟩ _ _
    rw [writeValue, writeText_eq_ok] at hwrite
    rw [hwrite.2]
    refine spells_scalar fun inside rest _ => ?_
    have hquote : quote u ++ rest = .char '"' :: (u.flatMap escaped ++ .char '"' :: rest) := by simp [quote]
    rw [hquote, readLayer, readText_quote]
    rfl
  | list _ ih => exact readsBack_list ih
  | @dict fields hkeys _ ih =>
    rintro limits levels t ⟨w, hwrite⟩ hdepth hdigits
    rw [Value.ofFields, writeValue] at hwrite
    obtain ⟨ts, hts, hwrite⟩ := bind_eq_ok.mp hwrite
    cases hwrite
    have hentries : List.Forall₂ (WritesEntry id) fields ts :=
      writes_entries (fun h => (writeKey_eq_ok.mp h).2) hts
    have hread := spells_entries ih hentries (Value.depth_ofFields_le.mp hdepth)
      (Value.intsWithin_ofFields.mp hdigits)
    have hfields : fields.map (fun e => (id e.1, e.2)) = fields := List.map_id fields
    rw [hfields, Value.ofEntries_of_nodup hkeys] at hread
    exact hread

theorem read_of_spells (h : Spells limits limits.depth t v) : read limits t = .ok v := read_of_item (.of_readAs h)

/-! ## When something is written -/

/-- A writer with so many levels writes something of the value. -/
def Writable (levels : Nat) (v : Value) : Prop := ∃ t, writeValue levels v = .ok t

theorem exists_writeItems {items : List Value} :
    (∃ ts, writeItems levels items = .ok ts) ↔ ∀ v ∈ items, 0 < levels ∧ Writable (levels - 1) v := by
  induction items with
  | nil => cases levels <;> simp [writeItems]
  | cons v vs ih =>
    cases levels with
    | zero =>
      rw [List.forall_mem_cons]
      simp [writeItems]
    | succ levels =>
      rw [List.forall_mem_cons, ← ih]
      simp only [writeItems, bind_eq_ok]
      constructor
      · rintro ⟨_, t, ht, ts, hts, _⟩
        exact ⟨⟨Nat.succ_pos _, t, ht⟩, ts, hts⟩
      · rintro ⟨⟨_, t, ht⟩, ts, hts⟩
        exact ⟨_, t, ht, ts, hts, rfl⟩

theorem exists_writeEntries {writeKey : Value → Except Unwritable Text} {fields : List (Text × Value)} :
    (∃ ts, writeEntries writeKey levels (fields.map fun e => (.text e.1, e.2)) = .ok ts) ↔
      ∀ e ∈ fields, (∃ k, writeKey (.text e.1) = .ok k) ∧ 0 < levels ∧ Writable (levels - 1) e.2 := by
  induction fields with
  | nil => cases levels <;> simp [writeEntries]
  | cons e es ih =>
    cases levels with
    | zero =>
      rw [List.forall_mem_cons]
      simp [writeEntries, bind_eq_ok]
    | succ levels =>
      rw [List.forall_mem_cons, ← ih]
      simp only [List.map_cons, writeEntries, bind_eq_ok]
      constructor
      · rintro ⟨_, k, hk, t, ht, ts, hts, _⟩
        exact ⟨⟨⟨k, hk⟩, Nat.succ_pos _, t, ht⟩, ts, hts⟩
      · rintro ⟨⟨⟨k, hk⟩, _, t, ht⟩, ts, hts⟩
        exact ⟨_, k, hk, t, ht, ts, hts, rfl⟩

theorem writable_below (h : Writable (levels - 1) v ↔ v.depth ≤ levels - 1 ∧ v.Encodable) :
    0 < levels ∧ Writable (levels - 1) v ↔ v.depth < levels ∧ v.Encodable := by
  rw [h, ← and_assoc]
  exact and_congr_left fun _ => by omega

/-- Something is written of a JSON value if it nests no deeper than the writer allows, and each text in it can be
encoded. -/
theorem writable_iff (h : Value.IsJson v) : Writable levels v ↔ v.depth ≤ levels ∧ v.Encodable := by
  induction h generalizing levels with
  | null => simp [Writable, writeValue, Value.depth, Value.Encodable, Value.scalars]
  | bool b => simp [Writable, writeValue, Value.depth, Value.Encodable, Value.scalars]
  | int n => simp [Writable, writeValue, Value.depth, Value.Encodable, Value.scalars]
  | float hx => simp [Writable, writeValue, Value.depth, Value.Encodable, Value.scalars]
  | text u => simp [Writable, writeValue, writeText_eq_ok, Value.depth, Value.Encodable, Value.scalars]
  | @list items _ ih =>
    have hwrite : Writable levels (.list items) ↔ ∃ ts, writeItems levels items = .ok ts := by
      simp [Writable, writeValue, bind_eq_ok]
    rw [hwrite, exists_writeItems, Value.depth_list_le, Value.encodable_list, ← forall₂_and]
    exact forall₂_congr fun v hv => writable_below (ih v hv)
  | @dict fields hkeys _ ih =>
    have hwrite : Writable levels (Value.ofFields fields) ↔
        ∃ ts, writeEntries writeKey levels (fields.map fun e => (.text e.1, e.2)) = .ok ts := by
      simp only [Writable, Value.ofFields, writeValue, bind_eq_ok, Except.ok.injEq]
      constructor
      · rintro ⟨_, ts, hts, _⟩
        exact ⟨ts, hts⟩
      · rintro ⟨ts, hts⟩
        exact ⟨_, ts, hts, rfl⟩
    rw [hwrite, exists_writeEntries, Value.depth_ofFields_le, Value.encodable_ofFields, ← forall₂_and]
    refine forall₂_congr fun e he => ?_
    rw [writable_below (ih e he)]
    simp only [writeKey_eq_ok, exists_and_left, exists_eq, and_true]
    exact and_left_comm

end MessageBus.Json
