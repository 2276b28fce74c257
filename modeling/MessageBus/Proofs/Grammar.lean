import MessageBus.Proofs.Quoting

/-!
# The grammar of JSON, layer by layer

A container is brackets around parts, with commas between them (`Enclosed`); a part is an item (`Item`) or an entry
(`Entry`), with blanks wherever they may stand. Such a text is read as a list or a dictionary by any layer whose
inside reads the parts (`readAs_list`, `readAs_dict`). Of a part nothing counts but what it is read as, so the parts
stay free.
-/

namespace MessageBus

theorem Stops.behind {b rest : Text} (hb : ∀ c ∈ b, Json.isBlank c = true) (h : Stops rest) : Stops (b ++ rest) := by
  cases b with
  | nil => exact h
  | cons c b => exact .blank (hb c List.mem_cons_self) _

namespace Json

variable {limits : Limits} {inside : Reader Value} {t : Text} {v : Value}

/-- The text is read as `a`, whatever ends it. -/
def ReadAs {α : Type} (r : Reader α) (t : Text) (a : α) : Prop :=
  ∀ ⦃rest : Text⦄, Stops rest → r (t ++ rest) = .ok (a, rest)

theorem ReadAs.alone {α : Type} {r : Reader α} {a : α} (h : ReadAs r t a) : r t = .ok (a, []) := by
  have hread := h .nothing
  rwa [List.append_nil] at hread

/-! ## Blanks -/

def Blanks (t : Text) : Prop := ∀ c ∈ t, isBlank c = true

instance (t : Text) : Decidable (Blanks t) := inferInstanceAs (Decidable (∀ c ∈ t, isBlank c = true))

theorem blanks_nil : Blanks [] := by simp [Blanks]

theorem skipBlanks_blanks {b : Text} (hb : Blanks b) (t : Text) : skipBlanks (b ++ t) = skipBlanks t :=
  List.dropWhile_append_of_pos hb

theorem exists_blanks (t : Text) : ∃ b, Blanks b ∧ t = b ++ skipBlanks t :=
  ⟨t.takeWhile isBlank, List.all_eq_true.mp List.all_takeWhile, List.takeWhile_append_dropWhile.symm⟩

theorem skipBlanks_count (t : Text) : (skipBlanks t).count (.char ',') = t.count (.char ',') := by
  obtain ⟨b, hb, ht⟩ := exists_blanks t
  have hnone : b.count (.char ',') = 0 := by
    rw [List.count_eq_zero]
    intro hmem
    exact absurd (hb _ hmem) (by decide)
  conv => rhs; rw [ht, List.count_append, hnone, Nat.zero_add]

/-! ## How values start -/

/-- The text starts with neither a blank nor the end of a container. -/
def Opens (t : Text) : Prop := ∃ c u, t = c :: u ∧ isBlank c = false ∧ c ≠ ']' ∧ c ≠ '\x7d'

theorem Opens.append (h : Opens t) (u : Text) : Opens (t ++ u) := by
  obtain ⟨c, t, rfl, hstart⟩ := h
  exact ⟨c, t ++ u, rfl, hstart⟩

theorem Opens.skipBlanks (h : Opens t) : skipBlanks t = t := by
  obtain ⟨c, t, rfl, hblank, _⟩ := h
  rw [Json.skipBlanks, List.dropWhile_cons, hblank]
  rfl

theorem opens_quote (t : Text) : Opens (.char '"' :: t) := ⟨'"', t, rfl, rfl, by decide, by decide⟩

/-- What the reader reads starts with neither a blank nor the end of a container. -/
def Opening (r : Reader Value) : Prop := ∀ ⦃t x⦄, r t = .ok x → Opens t

theorem ReadAs.opens (hr : Opening inside) (h : ReadAs inside t v) : Opens t := hr h.alone

theorem opening_readLayer (limits : Limits) (inside : Reader Value) : Opening (readLayer limits inside) := by
  intro t x h
  have hnothing {u : Text} (hscalar : readLayer limits inside u = readNumber limits u) (hnumeric : ¬ Numeric u) :
      readLayer limits inside u ≠ .ok x := by
    rw [hscalar, readNumber_of_not_numeric hnumeric]
    exact nofun
  cases t with
  | nil =>
    refine absurd h (hnothing rfl ?_)
    rintro ⟨negative, c, u, hu, _⟩
    cases negative <;> cases hu
  | cons c t =>
    have hsign : ∀ d ∈ [' ', '\t', '\n', '\r', ']', '\x7d'], d ≠ '-' ∧ d.isDigit = false := by
      simp only [List.forall_mem_cons]
      exact ⟨by decide, by decide, by decide, by decide, by decide, by decide, by simp⟩
    have hother (d : Char) (hd : d ∈ [' ', '\t', '\n', '\r', ']', '\x7d']) : c ≠ d := by
      rintro rfl
      refine absurd h (hnothing ?_ ?_)
      · simp only [List.mem_cons, List.not_mem_nil, or_false] at hd
        obtain rfl | rfl | rfl | rfl | rfl | rfl := hd <;> simp [readLayer, readScalar, after?, Text.ofString]
      · rintro ⟨negative, e, u, hu, he⟩
        cases negative with
        | true =>
          cases hu
          exact (hsign _ hd).1 rfl
        | false =>
          cases hu
          rw [(hsign _ hd).2] at he
          cases he
    refine ⟨c, t, rfl, ?_, hother ']' (by decide), hother '\x7d' (by decide)⟩
    simp [isBlank, hother ' ' (by decide), hother '\t' (by decide), hother '\n' (by decide),
      hother '\r' (by decide)]

theorem opening_readValue (limits : Limits) (levels : Nat) : Opening (readValue limits levels) := by
  obtain ⟨inside, hinside⟩ := exists_readLayer limits levels
  rw [hinside]
  exact opening_readLayer limits inside

/-! ## Parts of containers -/

/-- The text of an item: a value among blanks. -/
def Item (inside : Reader Value) (v : Value) (t : Text) : Prop :=
  ∃ before s after, t = before ++ (s ++ after) ∧ Blanks before ∧ Blanks after ∧ ReadAs inside s v

/-- The text behind the opening quote of a key, the closing quote included. -/
def SpellsKey (s key : Text) : Prop := ∀ opening rest, readText opening (s ++ rest) = .ok (key, rest)

theorem spellsKey_plain {name : Text} (h : ∀ c ∈ name, IsPlain c) : SpellsKey (name ++ [.char '"']) name := by
  intro opening rest
  rw [List.append_assoc]
  exact readText_plain h opening rest

/-- The text of an entry: a key between quotes and a value, with a colon between them and blanks. -/
def Entry (inside : Reader Value) (e : Text × Value) (t : Text) : Prop :=
  ∃ before s between u, t = before ++ .char '"' :: (s ++ (between ++ .char ':' :: u)) ∧ Blanks before ∧
    SpellsKey s e.1 ∧ Blanks between ∧ Item inside e.2 u

/-- Parts between two brackets, with commas between them; where there are no parts, there may be blanks. -/
inductive Enclosed {α : Type} (first last : Char) (p : α → Text → Prop) : List α → Text → Prop where
  | empty {b : Text} (hb : Blanks b) : Enclosed first last p [] (bracketed first last [b])
  | parts {xs : List α} {ts : List Text} (hne : xs ≠ []) (h : List.Forall₂ p xs ts) :
    Enclosed first last p xs (bracketed first last ts)

theorem bracketed_append (first last : Char) (ts : List Text) (rest : Text) :
    bracketed first last ts ++ rest = .char first :: (Text.joined [.char ','] ts ++ .char last :: rest) := by
  simp [bracketed]

theorem joined_cons (t u : Text) (ts : List Text) (more : Text) :
    Text.joined [.char ','] (t :: u :: ts) ++ more =
      t ++ .char ',' :: (Text.joined [.char ','] (u :: ts) ++ more) := by
  simp [Text.joined]

/-- There are no more parts than commas and one. -/
theorem length_le_count (ts : List Text) : ts.length ≤ (Text.joined [.char ','] ts).count (.char ',') + 1 := by
  induction ts with
  | nil => simp
  | cons t ts ih =>
    cases ts with
    | nil => simp
    | cons u ts =>
      simp only [Text.joined, List.count_append, List.count_cons_self, List.length_cons] at ih ⊢
      omega

/-- As much fuel as a reader of a container has is enough for its parts. -/
theorem length_le_fuel {α : Type} {p : α → Text → Prop} {parts : List α} {ts : List Text} (h : List.Forall₂ p parts ts)
    (rest : Text) : parts.length ≤ (skipBlanks (Text.joined [.char ','] ts ++ rest)).length + 1 := by
  have hcount := skipBlanks_count (Text.joined [.char ','] ts ++ rest)
  rw [List.count_append] at hcount
  have hlength : (skipBlanks (Text.joined [.char ','] ts ++ rest)).count (.char ',') ≤ _ := List.count_le_length
  have hparts := length_le_count ts
  rw [h.length_eq]
  omega

theorem Item.of_readAs (h : ReadAs inside t v) : Item inside v t :=
  ⟨[], t, [], by simp, blanks_nil, blanks_nil, h⟩

theorem Item.opens (hinside : Opening inside) (h : Item inside v t) (more : Text) : Opens (skipBlanks (t ++ more)) := by
  obtain ⟨before, s, after, rfl, hbefore, -, hs⟩ := h
  have hopens := (hs.opens hinside).append (after ++ more)
  rw [List.append_assoc, skipBlanks_blanks hbefore, List.append_assoc, hopens.skipBlanks]
  exact hopens

theorem Entry.opens {e : Text × Value} (h : Entry inside e t) (more : Text) : Opens (skipBlanks (t ++ more)) := by
  obtain ⟨before, s, between, u, rfl, hbefore, -⟩ := h
  have hopens := (opens_quote (s ++ (between ++ .char ':' :: u))).append more
  rw [List.append_assoc, skipBlanks_blanks hbefore, hopens.skipBlanks]
  exact hopens

/-- No container ends where its parts begin. -/
theorem opens_parts {α : Type} {p : α → Text → Prop} (hp : ∀ {x t}, p x t → ∀ more, Opens (skipBlanks (t ++ more)))
    {xs : List α} {ts : List Text} (hne : xs ≠ []) (h : List.Forall₂ p xs ts) (more : Text) :
    Opens (skipBlanks (Text.joined [.char ','] ts ++ more)) := by
  cases h with
  | nil => exact absurd rfl hne
  | @cons x t xs ts hx hxs =>
    cases ts with
    | nil => exact hp hx more
    | cons u ts =>
      rw [joined_cons]
      exact hp hx _

theorem Item.read (hinside : Opening inside) (h : Item inside v t) {more : Text} (hmore : Stops more) :
    ∃ left, inside (skipBlanks (t ++ more)) = .ok (v, left) ∧ skipBlanks left = skipBlanks more := by
  obtain ⟨before, s, after, rfl, hbefore, hafter, hs⟩ := h
  refine ⟨after ++ more, ?_, skipBlanks_blanks hafter more⟩
  rw [List.append_assoc, skipBlanks_blanks hbefore, List.append_assoc, ((hs.opens hinside).append _).skipBlanks]
  exact hs (hmore.behind hafter)

/-- A text is read as the value that stands in it among blanks. -/
theorem read_of_item (h : Item (readValue limits limits.depth) v t) : read limits t = .ok v := by
  obtain ⟨left, hread, hleft⟩ := h.read (opening_readValue limits limits.depth) .nothing
  rw [List.append_nil] at hread
  refine mapError_eq_ok.mpr (bind_eq_ok.mpr ⟨_, hread, ?_⟩)
  dsimp only
  rw [hleft]
  rfl

/-- The items of a list are read one after another. -/
theorem readItems_joined (hinside : Opening inside) {items : List Value} {ts : List Text}
    (h : List.Forall₂ (Item inside) items ts) (hne : items ≠ []) {fuel : Nat} (hfuel : items.length ≤ fuel)
    (rest : Text) :
    readItems inside fuel (skipBlanks (Text.joined [.char ','] ts ++ .char ']' :: rest)) = .ok (items, rest) := by
  induction h generalizing fuel with
  | nil => exact absurd rfl hne
  | @cons v t items ts hv hrest ih =>
    cases fuel with
    | zero => simp at hfuel
    | succ fuel =>
      cases hrest with
      | nil =>
        obtain ⟨left, hread, hleft⟩ := hv.read hinside (.bracket rest)
        rw [Text.joined, readItems]
        refine bind_eq_ok.mpr ⟨_, hread, ?_⟩
        dsimp only
        rw [hleft]
        rfl
      | @cons w u items ts hw hrest =>
        have hmore := ih (List.cons_ne_nil w items) (Nat.le_of_succ_le_succ hfuel)
        obtain ⟨left, hread, hleft⟩ := hv.read hinside (.comma (Text.joined [.char ','] (u :: ts) ++ .char ']' :: rest))
        rw [joined_cons, readItems]
        refine bind_eq_ok.mpr ⟨_, hread, ?_⟩
        dsimp only
        rw [hleft]
        exact bind_eq_ok.mpr ⟨_, hmore, rfl⟩

/-- What is read behind the value of an entry: the end of the dictionary or more entries. -/
def behindEntry (inside : Reader Value) (fuel : Nat) (e : Text × Value) : Reader (List (Text × Value))
  | .char '\x7d' :: left => .ok ([e], left)
  | .char ',' :: left => do
    let (es, left) ← readEntries inside fuel (skipBlanks left)
    .ok (e :: es, left)
  | left => stopAt .expectedComma left

theorem readEntries_first (hinside : Opening inside) {e : Text × Value} (h : Entry inside e t) (fuel : Nat)
    {more : Text} (hmore : Stops more) : readEntries inside (fuel + 1) (skipBlanks (t ++ more)) =
      behindEntry inside fuel e (skipBlanks more) := by
  obtain ⟨before, s, between, u, rfl, hbefore, hkey, hbetween, hu⟩ := h
  obtain ⟨left, hread, hleft⟩ := hu.read hinside hmore
  have hshape : before ++ .char '"' :: (s ++ (between ++ .char ':' :: u)) ++ more =
      before ++ .char '"' :: (s ++ (between ++ .char ':' :: (u ++ more))) := by simp
  have hcolon : skipBlanks (between ++ .char ':' :: (u ++ more)) = .char ':' :: (u ++ more) :=
    skipBlanks_blanks hbetween _
  rw [hshape, skipBlanks_blanks hbefore, (opens_quote _).skipBlanks, readEntries, hkey]
  simp only [bind, Except.bind, hcolon, hread]
  rw [← hleft]
  rfl

/-- The entries of a dictionary are read one after another. -/
theorem readEntries_joined (hinside : Opening inside) {es : List (Text × Value)} {ts : List Text}
    (h : List.Forall₂ (Entry inside) es ts) (hne : es ≠ []) {fuel : Nat} (hfuel : es.length ≤ fuel) (rest : Text) :
    readEntries inside fuel (skipBlanks (Text.joined [.char ','] ts ++ .char '\x7d' :: rest)) = .ok (es, rest) := by
  induction h generalizing fuel with
  | nil => exact absurd rfl hne
  | @cons e t es ts he hrest ih =>
    cases fuel with
    | zero => simp at hfuel
    | succ fuel =>
      cases hrest with
      | nil =>
        rw [Text.joined, readEntries_first hinside he _ (.brace rest)]
        rfl
      | @cons e' t' es ts he' hrest =>
        have hmore := ih (List.cons_ne_nil e' es) (Nat.le_of_succ_le_succ hfuel)
        rw [joined_cons, readEntries_first hinside he _ (.comma _)]
        exact bind_eq_ok.mpr ⟨_, hmore, rfl⟩

/-! ## Containers -/

theorem readAs_list (hinside : Opening inside) {items : List Value} (h : Enclosed '[' ']' (Item inside) items t) :
    ReadAs (readLayer limits inside) t (.list items) := by
  intro rest _
  cases h with
  | @empty b hb =>
    have hend : skipBlanks (b ++ .char ']' :: rest) = .char ']' :: rest := skipBlanks_blanks hb _
    rw [bracketed_append, readLayer, Text.joined, hend]
    rfl
  | @parts items ts hne hitems =>
    rw [bracketed_append, readLayer]
    split
    · next left hend =>
      obtain ⟨c, u, hc, _, hbracket, _⟩ := opens_parts (Item.opens hinside) hne hitems (.char ']' :: rest)
      rw [hend] at hc
      cases hc
      exact absurd rfl hbracket
    · exact bind_eq_ok.mpr ⟨_, readItems_joined hinside hitems hne (length_le_fuel hitems _) rest, rfl⟩

/-- Of entries under one key the last one counts. -/
theorem readAs_dict (hinside : Opening inside) {es : List (Text × Value)}
    (h : Enclosed '\x7b' '\x7d' (Entry inside) es t) : ReadAs (readLayer limits inside) t (Value.ofEntries es) := by
  intro rest _
  cases h with
  | @empty b hb =>
    have hend : skipBlanks (b ++ .char '\x7d' :: rest) = .char '\x7d' :: rest := skipBlanks_blanks hb _
    rw [bracketed_append, readLayer, Text.joined, hend]
    rfl
  | @parts es ts hne hentries =>
    rw [bracketed_append, readLayer]
    split
    · next left hend =>
      obtain ⟨c, u, hc, _, _, hbrace⟩ := opens_parts Entry.opens hne hentries (.char '\x7d' :: rest)
      rw [hend] at hc
      cases hc
      exact absurd rfl hbrace
    · exact bind_eq_ok.mpr ⟨_, readEntries_joined hinside hentries hne (length_le_fuel hentries _) rest, rfl⟩

end Json

end MessageBus
