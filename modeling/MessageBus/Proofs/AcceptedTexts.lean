import MessageBus.Proofs.Grammar
import MessageBus.Proofs.Refusals

/-!
# Accepted texts

What a reader takes off a text stands for itself: it is read the same before all that may stand behind a value
(`Local`). So a text is read if and only if it is in the grammar of its layer (`spelling_iff`), and a whole text is
a value among blanks (`read_eq_ok_iff`).

The parts go first: numerals, texts between quotes and words, then items and entries with the fuel of their
readers, and the layers last, by induction on the levels.
-/

namespace MessageBus.Json

open Text

variable {limits : Limits} {inside : Reader Value} {t left : Text} {v : Value}

/-- What the reader takes off a text is read the same before all that may stand behind a value. -/
def Local {α : Type} (r : Reader α) : Prop := ∀ ⦃t a left⦄, r t = .ok (a, left) → ∃ s, t = s ++ left ∧ ReadAs r s a

/-! ## Numbers -/

theorem local_readNumber (limits : Limits) : Local (readNumber limits) := by
  intro t v out h
  rcases hsign : afterSign t with ⟨negative, unsigned⟩
  rcases hwhole : readWhole unsigned with ⟨digits, left⟩
  cases digits with
  | nil =>
    rw [readNumber_of_nothing hsign hwhole] at h
    cases h
  | cons d ds =>
    rcases hfraction : readFraction left with ⟨fraction, left'⟩
    rcases hexponent : readExponent left' with ⟨exponent, out'⟩
    rw [readNumber_of_parts hsign hwhole (List.cons_ne_nil d ds) hfraction hexponent] at h
    obtain ⟨u, hu, hx⟩ : ∃ u, assembled limits negative (d :: ds) fraction exponent = .ok u ∧ (u, out') = (v, out) := by
      cases hassembled : assembled limits negative (d :: ds) fraction exponent with
      | error e =>
        rw [hassembled] at h
        cases h
      | ok u =>
        rw [hassembled] at h
        exact ⟨u, rfl, Except.ok.inj h⟩
    cases hx
    obtain rfl := afterSign_eq hsign
    obtain ⟨cs, hdigits, hcs, rfl⟩ := readWhole_eq hwhole (List.cons_ne_nil d ds)
    obtain ⟨f, rfl, hf⟩ := readFraction_eq hfraction
    obtain ⟨e, rfl, he⟩ := readExponent_eq hexponent
    refine ⟨signed negative (cs.map .char ++ (f ++ e)), by simp [signed_append], fun rest hrest => ?_⟩
    obtain ⟨hspan, hnone, hread⟩ := he hrest
    obtain ⟨htail, hread'⟩ := hf hspan hnone
    rw [signed_append, List.append_assoc, List.append_assoc, readNumber_signed hcs negative htail hread' hread,
      hdigits, hu]
    rfl

/-! ## Texts between quotes -/

/-- The text is read as these pieces, whatever stands behind it. -/
def Pieces (s : Text) (pieces : List Piece) : Prop :=
  ∀ opening rest, readPieces opening (s ++ rest) = .ok (pieces, rest)

/-- A closing quote at least ends the pieces. -/
theorem Pieces.ne_nil {s : Text} {pieces : List Piece} (h : Pieces s pieces) : s ≠ [] := by
  rintro rfl
  cases h 0 []

theorem pieces_of_readPieces {opening : Nat} {pieces : List Piece} (h : readPieces opening t = .ok (pieces, left)) :
    ∃ s, t = s ++ left ∧ Pieces s pieces := by
  fun_induction readPieces opening t generalizing pieces with
  | case2 rest =>
    cases h
    exact ⟨[.char '"'], rfl, readPieces_quote⟩
  | case4 p q r s next rest n hunit _ ih =>
    obtain ⟨⟨pieces, left⟩, hrest, hpieces⟩ := bind_eq_ok.mp h
    cases hpieces
    obtain ⟨u, hu, hread⟩ := ih hrest
    refine ⟨.char '\\' :: .char 'u' :: p :: q :: r :: s :: u, by rw [hu]; rfl, fun opening rest => ?_⟩
    have hne : u ++ rest ≠ [] := List.append_ne_nil_of_left_ne_nil hread.ne_nil rest
    exact (readPieces_unit hunit opening hne).trans (bind_eq_ok.mpr ⟨_, hread opening rest, rfl⟩)
  | case7 e rest he c hshort _ ih =>
    obtain ⟨⟨pieces, left⟩, hrest, hpieces⟩ := bind_eq_ok.mp h
    cases hpieces
    obtain ⟨u, hu, hread⟩ := ih hrest
    refine ⟨.char '\\' :: e :: u, by rw [hu]; rfl, fun opening rest => ?_⟩
    exact (readPieces_short he hshort opening (u ++ rest)).trans (bind_eq_ok.mpr ⟨_, hread opening rest, rfl⟩)
  | case10 c rest hquote hbackslash hcontrol ih =>
    obtain ⟨⟨pieces, left⟩, hrest, hpieces⟩ := bind_eq_ok.mp h
    cases hpieces
    obtain ⟨u, hu, hread⟩ := ih hrest
    refine ⟨c :: u, by rw [hu]; rfl, fun opening rest => ?_⟩
    exact (readPieces_plain ⟨hquote, hbackslash, hcontrol⟩ opening (u ++ rest)).trans
      (bind_eq_ok.mpr ⟨_, hread opening rest, rfl⟩)
  | _ => cases h

theorem spellsKey_of_readText {opening : Nat} {key : Text} (h : readText opening t = .ok (key, left)) :
    ∃ s, t = s ++ left ∧ SpellsKey s key := by
  obtain ⟨⟨pieces, left⟩, hpieces, hkey⟩ := bind_eq_ok.mp h
  cases hkey
  obtain ⟨s, hs, hread⟩ := pieces_of_readPieces hpieces
  exact ⟨s, hs, fun opening rest => bind_eq_ok.mpr ⟨_, hread opening rest, rfl⟩⟩

/-! ## Words -/

/-- The words and what they stand for. -/
def words : List (Text × Value) :=
  [("null", .null), ("true", .bool true), ("false", .bool false), ("NaN", .float .nan),
    ("Infinity", .float (.infinite false)), ("-Infinity", .float (.infinite true))]

theorem readScalar_eq_ok (h : readScalar limits t = .ok (v, left)) :
    (∃ w, (w, v) ∈ words ∧ t = w ++ left) ∨ readNumber limits t = .ok (v, left) := by
  unfold readScalar at h
  split at h
  case h_7 => exact .inr h
  all_goals
    cases h
    rename_i hword
    exact .inl ⟨_, by simp [words], eq_of_after? hword⟩

theorem readLayer_word {w : Text} (h : (w, v) ∈ words) (rest : Text) :
    readLayer limits inside (w ++ rest) = .ok (v, rest) := by
  simp only [words, List.mem_cons, Prod.mk.injEq, List.not_mem_nil, or_false] at h
  obtain ⟨rfl, rfl⟩ | ⟨rfl, rfl⟩ | ⟨rfl, rfl⟩ | ⟨rfl, rfl⟩ | ⟨rfl, rfl⟩ | ⟨rfl, rfl⟩ := h <;> rfl

theorem readAs_word {w : Text} (h : (w, v) ∈ words) (limits : Limits) (levels : Nat) :
    ReadAs (readValue limits levels) w v := by
  obtain ⟨inside, hinside⟩ := exists_readLayer limits levels
  rw [hinside]
  exact fun rest _ => readLayer_word h rest

theorem readAs_plain {u : Text} (h : ∀ c ∈ u, IsPlain c) (limits : Limits) (levels : Nat) :
    ReadAs (readValue limits levels) (.char '"' :: (u ++ [.char '"'])) (.text u) := by
  obtain ⟨inside, hinside⟩ := exists_readLayer limits levels
  intro rest _
  rw [hinside, List.cons_append, readLayer, spellsKey_plain h]
  rfl

/-! ## Parts of containers -/

theorem exists_item (hinside : Local inside) (h : inside (skipBlanks t) = .ok (v, left)) :
    ∃ u, t = u ++ skipBlanks left ∧ Item inside v u := by
  obtain ⟨before, hbefore, ht⟩ := exists_blanks t
  obtain ⟨s, hs, hread⟩ := hinside h
  obtain ⟨after, hafter, hleft⟩ := exists_blanks left
  refine ⟨before ++ (s ++ after), ?_, before, s, after, rfl, hbefore, hafter, hread⟩
  rw [List.append_assoc, List.append_assoc, ← hleft, ← hs, ← ht]

theorem items_of_readItems (hinside : Local inside) {fuel : Nat} {items : List Value}
    (h : readItems inside fuel (skipBlanks t) = .ok (items, left)) :
    items ≠ [] ∧ ∃ ts, t = Text.joined [.char ','] ts ++ .char ']' :: left ∧ List.Forall₂ (Item inside) items ts := by
  induction fuel generalizing t items with
  | zero => cases h
  | succ fuel ih =>
    rw [readItems] at h
    obtain ⟨⟨v, behind⟩, hv, h⟩ := bind_eq_ok.mp h
    obtain ⟨u, ht, hu⟩ := exists_item hinside hv
    dsimp only at h
    split at h
    · next hend =>
      cases h
      exact ⟨List.cons_ne_nil v [], [u], by rw [ht, hend, Text.joined], .cons hu .nil⟩
    · next more hend =>
      obtain ⟨⟨items, left⟩, hmore, h⟩ := bind_eq_ok.mp h
      cases h
      obtain ⟨hne, ts, hts, hitems⟩ := ih hmore
      refine ⟨List.cons_ne_nil v items, u :: ts, ?_, .cons hu hitems⟩
      cases hitems with
      | nil => exact absurd rfl hne
      | cons _ _ => rw [ht, hend, hts, joined_cons]
    · cases h

/-- What is read first of entries is one of them. -/
theorem exists_entry (hinside : Local inside) {fuel : Nat} {es : List (Text × Value)}
    (h : readEntries inside (fuel + 1) (skipBlanks t) = .ok (es, left)) :
    ∃ e u rest, t = u ++ rest ∧ Entry inside e u ∧ behindEntry inside fuel e rest = .ok (es, left) := by
  obtain ⟨before, hbefore, ht⟩ := exists_blanks t
  unfold readEntries at h
  dsimp only at h
  split at h
  · next behind hquote =>
    obtain ⟨⟨key, left'⟩, hkey, h⟩ := bind_eq_ok.mp h
    obtain ⟨s, hs, hspells⟩ := spellsKey_of_readText hkey
    obtain ⟨between, hbetween, hleft'⟩ := exists_blanks left'
    dsimp only at h
    split at h
    · next behind' hcolon =>
      obtain ⟨⟨v, left''⟩, hv, h⟩ := bind_eq_ok.mp h
      obtain ⟨u, hu, hitem⟩ := exists_item hinside hv
      refine ⟨(key, v), before ++ .char '"' :: (s ++ (between ++ .char ':' :: u)), skipBlanks left'', ?_,
        ⟨before, s, between, u, rfl, hbefore, hspells, hbetween, hitem⟩, h⟩
      rw [ht, hquote, hs, hleft', hcolon, hu]
      simp
    · cases h
  · cases h

theorem entries_of_readEntries (hinside : Local inside) {fuel : Nat} {es : List (Text × Value)}
    (h : readEntries inside fuel (skipBlanks t) = .ok (es, left)) :
    es ≠ [] ∧ ∃ ts, t = Text.joined [.char ','] ts ++ .char '\x7d' :: left ∧ List.Forall₂ (Entry inside) es ts := by
  induction fuel generalizing t es with
  | zero => cases h
  | succ fuel ih =>
    obtain ⟨e, u, rest, rfl, hentry, h⟩ := exists_entry hinside h
    unfold behindEntry at h
    split at h
    · cases h
      exact ⟨List.cons_ne_nil e [], [u], by rw [Text.joined], .cons hentry .nil⟩
    · next more =>
      obtain ⟨⟨es, left⟩, hmore, h⟩ := bind_eq_ok.mp h
      cases h
      obtain ⟨hne, ts, hts, hentries⟩ := ih hmore
      refine ⟨List.cons_ne_nil e es, u :: ts, ?_, .cons hentry hentries⟩
      cases hentries with
      | nil => exact absurd rfl hne
      | cons _ _ => rw [hts, joined_cons]
    · cases h

/-! ## Layers -/

/-- The texts of a value in a layer whose inside reads the parts. -/
inductive Spelling (limits : Limits) (inside : Reader Value) : Value → Text → Prop where
  | text {u s : Text} (h : SpellsKey s u) : Spelling limits inside (.text u) (.char '"' :: s)
  | list {items : List Value} {t : Text} (h : Enclosed '[' ']' (Item inside) items t) :
    Spelling limits inside (.list items) t
  | dict {es : List (Text × Value)} {t : Text} (h : Enclosed '\x7b' '\x7d' (Entry inside) es t) :
    Spelling limits inside (Value.ofEntries es) t
  | word {v : Value} {w : Text} (h : (w, v) ∈ words) : Spelling limits inside v w
  | number {v : Value} {t : Text} (h : ReadAs (readNumber limits) t v) : Spelling limits inside v t

theorem Spelling.readAs (hinside : Opening inside) (h : Spelling limits inside v t) :
    ReadAs (readLayer limits inside) t v := by
  cases h with
  | @text u s h =>
    intro rest _
    rw [List.cons_append, readLayer, h]
    rfl
  | list h => exact readAs_list hinside h
  | dict h => exact readAs_dict hinside h
  | word h => exact fun rest _ => readLayer_word h rest
  | number h =>
    intro rest hrest
    have hnumeric : Numeric (t ++ rest) := by
      refine Classical.byContradiction fun hnot => ?_
      have hread := h hrest
      rw [readNumber_of_not_numeric hnot] at hread
      cases hread
    rw [readLayer_of_numeric hnumeric, h hrest]

theorem exists_empty {α : Type} (p : α → Text → Prop) (first : Char) {last : Char} {rest : Text}
    (h : skipBlanks rest = .char last :: left) :
    ∃ s, .char first :: rest = s ++ left ∧ Enclosed first last p [] s := by
  obtain ⟨b, hb, hrest⟩ := exists_blanks rest
  exact ⟨bracketed first last [b], by rw [bracketed_append, Text.joined, ← h, ← hrest], .empty hb⟩

theorem spelling_of_readLayer (hinside : Local inside) (h : readLayer limits inside t = .ok (v, left)) :
    ∃ s, t = s ++ left ∧ Spelling limits inside v s := by
  unfold readLayer at h
  split at h
  · next rest =>
    obtain ⟨⟨u, behind⟩, hu, h⟩ := bind_eq_ok.mp h
    cases h
    obtain ⟨s, rfl, hs⟩ := spellsKey_of_readText hu
    exact ⟨.char '"' :: s, rfl, .text hs⟩
  · next rest =>
    split at h
    · next hend =>
      cases h
      obtain ⟨s, hs, hempty⟩ := exists_empty (Item inside) '[' hend
      exact ⟨s, hs, .list hempty⟩
    · obtain ⟨⟨items, behind⟩, hitems, h⟩ := bind_eq_ok.mp h
      cases h
      obtain ⟨hne, ts, rfl, hts⟩ := items_of_readItems hinside hitems
      exact ⟨bracketed '[' ']' ts, (bracketed_append ..).symm, .list (.parts hne hts)⟩
  · next rest =>
    split at h
    · next hend =>
      cases h
      obtain ⟨s, hs, hempty⟩ := exists_empty (Entry inside) '\x7b' hend
      exact ⟨s, hs, .dict hempty⟩
    · obtain ⟨⟨es, behind⟩, hes, h⟩ := bind_eq_ok.mp h
      cases h
      obtain ⟨hne, ts, rfl, hts⟩ := entries_of_readEntries hinside hes
      exact ⟨bracketed '\x7b' '\x7d' ts, (bracketed_append ..).symm, .dict (.parts hne hts)⟩
  · obtain ⟨w, hw, ht⟩ | hnumber := readScalar_eq_ok h
    · exact ⟨w, ht, .word hw⟩
    · obtain ⟨s, hs, hread⟩ := local_readNumber limits hnumber
      exact ⟨s, hs, .number hread⟩

theorem local_readLayer (hopening : Opening inside) (hlocal : Local inside) : Local (readLayer limits inside) := by
  intro t v left h
  obtain ⟨s, hs, hspelling⟩ := spelling_of_readLayer hlocal h
  exact ⟨s, hs, hspelling.readAs hopening⟩

/-- A layer reads a text as a value if and only if the text is one of the value in that layer. -/
theorem spelling_iff (hopening : Opening inside) (hlocal : Local inside) :
    ReadAs (readLayer limits inside) t v ↔ Spelling limits inside v t := by
  refine ⟨fun h => ?_, Spelling.readAs hopening⟩
  obtain ⟨s, hs, hspelling⟩ := spelling_of_readLayer hlocal h.alone
  rw [List.append_nil] at hs
  exact hs ▸ hspelling

theorem local_readValue (limits : Limits) (levels : Nat) : Local (readValue limits levels) := by
  induction levels with
  | zero =>
    -- a reader that reads nothing has nothing to take off
    exact local_readLayer (fun _ _ h => nomatch h) fun _ _ _ h => nomatch h
  | succ levels ih => exact local_readLayer (opening_readValue limits levels) ih

/-- A text is read if and only if it is that of a value among blanks. -/
theorem read_eq_ok_iff : read limits t = .ok v ↔ Item (readValue limits limits.depth) v t := by
  refine ⟨fun h => ?_, read_of_item⟩
  obtain ⟨⟨u, left⟩, hu, h⟩ := bind_eq_ok.mp (mapError_eq_ok.mp h)
  dsimp only at h
  split at h
  · next hend =>
    cases h
    obtain ⟨s, ht, hitem⟩ := exists_item (local_readValue limits limits.depth) hu
    rw [hend, List.append_nil] at ht
    exact ht ▸ hitem
  · cases h

/-! ## Objects -/

/-- The text of an object with these entries, in the order in which they stand. -/
def ObjectText (inside : Reader Value) (es : List (Text × Value)) (t : Text) : Prop :=
  ∃ before s after, t = before ++ (s ++ after) ∧ Blanks before ∧ Blanks after ∧
    Enclosed '\x7b' '\x7d' (Entry inside) es s

theorem Spelling.entries {fields : List (Value × Value)} (h : Spelling limits inside (.dict fields) t) :
    ∃ es, Enclosed '\x7b' '\x7d' (Entry inside) es t ∧ .dict fields = Value.ofEntries es := by
  generalize hv : Value.dict fields = v at h
  cases h with
  | text => cases hv
  | list => cases hv
  | dict h => exact ⟨_, h, rfl⟩
  | word h =>
    subst hv
    simp [words] at h
  | number h =>
    subst hv
    have hread := h.alone
    cases numberAt t with
    | nothing hnothing =>
      rw [hnothing limits] at hread
      cases hread
    | int n digits left _ _ _ _ _ hint =>
      rw [hint limits] at hread
      split at hread <;> cases hread
    | float x left _ hfloat =>
      rw [hfloat limits] at hread
      cases hread

/-- A text is read as a dictionary if and only if it is that of an object, and then as what the last entry under each
key says. -/
theorem read_object_iff {levels : Nat} (hdepth : limits.depth = levels + 1) :
    (read limits t = .ok v ∧ ∃ fields, v = .dict fields) ↔
      ∃ es, ObjectText (readValue limits levels) es t ∧ v = Value.ofEntries es := by
  rw [read_eq_ok_iff, hdepth]
  constructor
  · rintro ⟨⟨before, s, after, ht, hbefore, hafter, hs⟩, fields, rfl⟩
    have hspelling := (spelling_iff (opening_readValue limits levels) (local_readValue limits levels)).mp hs
    obtain ⟨es, hes, hfields⟩ := hspelling.entries
    exact ⟨es, ⟨before, s, after, ht, hbefore, hafter, hes⟩, hfields⟩
  · rintro ⟨es, ⟨before, s, after, ht, hbefore, hafter, hes⟩, rfl⟩
    exact ⟨⟨before, s, after, ht, hbefore, hafter, readAs_dict (opening_readValue limits levels) hes⟩, _, rfl⟩

end MessageBus.Json
