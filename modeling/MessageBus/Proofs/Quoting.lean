import MessageBus.Proofs.Reading

/-!
# Quoted texts that read back

A quoted text is read back as it was, whatever its code points are (`readText_quote`): each of them is written as
one piece that the reader makes this code point of, and no two pieces join.
-/

namespace MessageBus.Json

/-- A code point that is neither a quote, a backslash nor a control with a short escape, and is a control. -/
def IsUnit (c : CodePoint) : Prop :=
  c.val < 0x20 ∧ c ≠ '\x08' ∧ c ≠ '\x0c' ∧ c ≠ '\n' ∧ c ≠ '\r' ∧ c ≠ '\t'

instance (c : CodePoint) : Decidable (IsUnit c) := inferInstanceAs (Decidable (_ ∧ _))

/-- The piece that a code point between quotes is written as. -/
def pieceOf (c : CodePoint) : Piece := if IsUnit c then .unit c.val else .plain c

theorem ofNat_val {c : CodePoint} (h : c.val < 0x20) : CodePoint.ofNat c.val = c := by
  cases c with
  | char c =>
    have hsmall : ¬ (0xD800 ≤ c.toNat ∧ c.toNat < 0xE000) := by
      have hval : c.toNat < 0x20 := h
      omega
    rw [CodePoint.val, CodePoint.ofNat, if_neg hsmall, Char.ofNat_toNat]
  | surrogate half =>
    have hval : 0xD800 + half.val < 0x20 := h
    omega

theorem join_pieces (t : Text) : Piece.join (t.map pieceOf) = t := by
  induction t with
  | nil => rfl
  | cons c t ih =>
    rw [List.map_cons, pieceOf]
    split
    · next hunit =>
      -- a control is no half of a pair, so it is joined to nothing
      have hsingle :
          Piece.join (.unit c.val :: t.map pieceOf) = CodePoint.ofNat c.val :: Piece.join (t.map pieceOf) := by
        have hcontrol := hunit.1
        cases t.map pieceOf with
        | nil => rfl
        | cons p ps =>
          cases p with
          | plain d => rfl
          | unit n => rw [Piece.join, if_neg (by omega)]
      rw [hsingle, ofNat_val hunit.1, ih]
    · rw [Piece.join, ih]

/-- The three ways in which a code point is escaped. -/
inductive Escapes (c : CodePoint) : Text → Prop where
  | short (e : CodePoint) (he : e ≠ 'u') (hshort : shortEscape? e = some c) (hunit : ¬ IsUnit c) :
      Escapes c ['\\', e]
  | unit (hunit : IsUnit c) : Escapes c ("\\u00" ++ Text.hex 2 c.val)
  | plain (hplain : IsPlain c) (hunit : ¬ IsUnit c) : Escapes c [c]

theorem escapes (c : CodePoint) : Escapes c (escaped c) := by
  unfold escaped
  by_cases hquote : c = '"'
  · rw [if_pos hquote, hquote]
    exact .short '"' (by decide) rfl (by decide)
  rw [if_neg hquote]
  by_cases hbackslash : c = '\\'
  · rw [if_pos hbackslash, hbackslash]
    exact .short '\\' (by decide) rfl (by decide)
  rw [if_neg hbackslash]
  by_cases hb : c = '\x08'
  · rw [if_pos hb, hb]
    exact .short 'b' (by decide) rfl (by decide)
  rw [if_neg hb]
  by_cases hf : c = '\x0c'
  · rw [if_pos hf, hf]
    exact .short 'f' (by decide) rfl (by decide)
  rw [if_neg hf]
  by_cases hn : c = '\n'
  · rw [if_pos hn, hn]
    exact .short 'n' (by decide) rfl (by decide)
  rw [if_neg hn]
  by_cases hr : c = '\r'
  · rw [if_pos hr, hr]
    exact .short 'r' (by decide) rfl (by decide)
  rw [if_neg hr]
  by_cases ht : c = '\t'
  · rw [if_pos ht, ht]
    exact .short 't' (by decide) rfl (by decide)
  rw [if_neg ht]
  split
  · next hcontrol => exact .unit ⟨hcontrol, hb, hf, hn, hr, ht⟩
  · next hcontrol => exact .plain ⟨hquote, hbackslash, hcontrol⟩ fun hunit => hcontrol hunit.1

theorem readPieces_short {c e : CodePoint} (he : e ≠ 'u') (hshort : shortEscape? e = some c) (opening : Nat)
    (t : Text) :
    readPieces opening (.char '\\' :: e :: t) =
      (readPieces opening t >>= fun (pieces, left) => .ok (.plain c :: pieces, left)) := by
  conv => lhs; unfold readPieces
  simp [he, hshort]

theorem readPieces_unit {p q r s : CodePoint} {n : Nat} (h : unit? p q r s = some n) (opening : Nat) {t : Text}
    (ht : t ≠ []) :
    readPieces opening (.char '\\' :: .char 'u' :: p :: q :: r :: s :: t) =
      (readPieces opening t >>= fun (pieces, left) => .ok (.unit n :: pieces, left)) := by
  cases t with
  | nil => exact absurd rfl ht
  | cons next t =>
    conv => lhs; unfold readPieces
    simp [h]

theorem unit?_hex : ∀ v < 0x20, unit? '0' '0' (Text.hexDigit (v / 16)) (Text.hexDigit v) = some v := by decide

/-- An escaped code point is read as its piece, if anything follows it. -/
theorem readPieces_escaped (opening : Nat) (c : CodePoint) {t : Text} (ht : t ≠ []) :
    readPieces opening (escaped c ++ t) =
      (readPieces opening t >>= fun (pieces, left) => .ok (pieceOf c :: pieces, left)) := by
  have hescapes := escapes c
  generalize escaped c = word at hescapes
  cases hescapes with
  | short e he hshort hunit =>
    rw [pieceOf, if_neg hunit]
    exact readPieces_short he hshort opening t
  | unit hunit =>
    rw [pieceOf, if_pos hunit]
    exact readPieces_unit (unit?_hex _ hunit.1) opening ht
  | plain hplain hunit =>
    rw [pieceOf, if_neg hunit]
    exact readPieces_plain hplain opening t

/-- What stands between quotes is the text that was quoted. -/
theorem readText_quote (opening : Nat) (t rest : Text) :
    readText opening (t.flatMap escaped ++ .char '"' :: rest) = .ok (t, rest) := by
  have hpieces : readPieces opening (t.flatMap escaped ++ .char '"' :: rest) = .ok (t.map pieceOf, rest) := by
    induction t with
    | nil => exact readPieces_quote opening rest
    | cons c t ih =>
      rw [List.flatMap_cons, List.append_assoc, readPieces_escaped opening c (by simp), ih]
      rfl
  rw [readText, hpieces]
  exact congrArg (fun u => Except.ok (u, rest)) (join_pieces t)

end MessageBus.Json
