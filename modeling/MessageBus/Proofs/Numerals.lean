import MessageBus.Json.Reader
import MessageBus.Json.Writer
import MessageBus.Proofs.Decimal

/-!
# Written numbers that read back

A written number is a numeral: a sign, whole digits, perhaps a fraction, perhaps an exponent. What the reader
makes of a numeral depends on its parts alone (`readNumber_signed`), as long as the text behind it does not go on
with it. Integers are read back unless they have too many digits (`readLayer_ofInt`), and finite binary64 numbers
always, with their sign and to the last bit (`readLayer_writeFloat`).
-/

namespace MessageBus

/-- What may stand behind a value: nothing, a blank, a comma, or the end of a container. -/
inductive Stops : Text → Prop where
  | nothing : Stops []
  | blank {c : CodePoint} (h : Json.isBlank c = true) (t : Text) : Stops (c :: t)
  | comma (t : Text) : Stops (.char ',' :: t)
  | bracket (t : Text) : Stops (.char ']' :: t)
  | brace (t : Text) : Stops (.char '\x7d' :: t)

namespace Text

/-! ## Digits -/

def digitOf (c : Char) : Nat := c.toNat - 48

theorem digit?_of_isDigit {c : Char} (h : c.isDigit = true) : CodePoint.digit? (.char c) = some (digitOf c) := by
  rw [CodePoint.digit?, if_pos h]
  rfl

theorem eq_zero_of_digitOf {c : Char} (h : c.isDigit = true) (hzero : digitOf c = 0) : c = '0' := by
  have hleast : 48 ≤ c.toNat := by
    simp only [Char.isDigit, Bool.and_eq_true, decide_eq_true_eq] at h
    exact UInt32.le_iff_toNat_le.mp h.1
  have hval : c.toNat = '0'.toNat := by
    have hzeroVal : '0'.toNat = 48 := rfl
    unfold digitOf at hzero
    omega
  exact Char.toNat_inj.mp hval

theorem numberOf_digits (cs : List Char) : numberOf (cs.map digitOf) = Nat.ofDigitChars 10 cs 0 := by
  rw [numberOf, Nat.ofDigitChars_eq_foldl, List.foldl_map]
  congr 1
  funext n c
  rw [Nat.mul_comm]
  rfl

theorem digit?_lt {c : CodePoint} {d : Nat} (h : c.digit? = some d) : d < 10 := by
  cases c with
  | char c =>
    rw [CodePoint.digit?] at h
    split at h
    · next hdigit =>
      cases h
      simp only [Char.isDigit, Bool.and_eq_true, decide_eq_true_eq] at hdigit
      have hle : c.toNat ≤ 57 := UInt32.le_iff_toNat_le.mp hdigit.2
      omega
    · cases h
  | surrogate half => cases h

theorem spanDigits_lt {t left : Text} {digits : List Nat} (h : spanDigits t = (digits, left)) :
    ∀ d ∈ digits, d < 10 := by
  induction t generalizing digits left with
  | nil =>
    cases h
    simp
  | cons c t ih =>
    rw [spanDigits] at h
    split at h
    · next d hd =>
      cases h
      rw [List.forall_mem_cons]
      exact ⟨digit?_lt hd, ih rfl⟩
    · cases h
      simp

/-- The digits at the head of a text, and what is behind them. -/
theorem spanDigits_append {cs : List Char} (hcs : ∀ c ∈ cs, c.isDigit = true) {rest : Text}
    (hrest : spanDigits rest = ([], rest)) : spanDigits (cs.map .char ++ rest) = (cs.map digitOf, rest) := by
  induction cs with
  | nil => exact hrest
  | cons c cs ih =>
    have htail := ih fun d hd => hcs d (List.mem_cons_of_mem _ hd)
    rw [List.map_cons, List.cons_append, spanDigits, digit?_of_isDigit (hcs c List.mem_cons_self)]
    dsimp only
    rw [htail]
    rfl

theorem isDigit_toDigits (n : Nat) : ∀ c ∈ Nat.toDigits 10 n, c.isDigit = true :=
  fun _ hc => Nat.isDigit_of_mem_toDigits (by decide) (by decide) hc

/-- The digits of a number do not begin with a zero, unless it is zero. -/
theorem head_toDigits {n : Nat} (hn : n ≠ 0) : (Nat.toDigits 10 n).head? ≠ some '0' := by
  induction n using Nat.strongRecOn with
  | ind n ih =>
    by_cases hsmall : n < 10
    · rw [Nat.toDigits_of_lt_base hsmall]
      have hdigits : ∀ d < 10, d ≠ 0 → [Nat.digitChar d].head? ≠ some '0' := by decide
      exact hdigits n hsmall hn
    · have hhead := ih (n / 10) (by omega) (by omega)
      rw [Nat.toDigits_of_base_le (by decide) (by omega)]
      cases hdigits : Nat.toDigits 10 (n / 10) with
      | nil => exact absurd hdigits Nat.toDigits_ne_nil
      | cons d ds =>
        rw [hdigits] at hhead
        exact hhead

end Text

namespace Json

open Text

variable {limits : Limits} {rest : Text}

/-! ## The parts of a numeral -/

theorem eq_of_isBlank {c : CodePoint} (h : isBlank c = true) : c = ' ' ∨ c = '\t' ∨ c = '\n' ∨ c = '\r' := by
  simpa [isBlank, or_assoc] using h

theorem spanDigits_of_stops (h : Stops rest) : spanDigits rest = ([], rest) := by
  cases h with
  | blank hc => obtain rfl | rfl | rfl | rfl := eq_of_isBlank hc <;> rfl
  | _ => rfl

theorem readFraction_of_stops (h : Stops rest) : readFraction rest = (none, rest) := by
  cases h with
  | blank hc => obtain rfl | rfl | rfl | rfl := eq_of_isBlank hc <;> rfl
  | _ => rfl

theorem readExponent_of_stops (h : Stops rest) : readExponent rest = (none, rest) := by
  cases h with
  | blank hc => obtain rfl | rfl | rfl | rfl := eq_of_isBlank hc <;> rfl
  | _ => rfl

/-- Digits of which only a zero alone begins with a zero. -/
structure WholeDigits (cs : List Char) : Prop where
  digits : ∀ c ∈ cs, c.isDigit = true
  nonempty : cs ≠ []
  zero : cs.head? = some '0' → cs = ['0']

theorem whole_toDigits (n : Nat) : WholeDigits (Nat.toDigits 10 n) where
  digits := isDigit_toDigits n
  nonempty := Nat.toDigits_ne_nil
  zero hhead := by
    by_cases hn : n = 0
    · rw [hn]
      rfl
    · exact absurd hhead (head_toDigits hn)

theorem whole_zero : WholeDigits ['0'] where
  digits := List.forall_mem_singleton.mpr rfl
  nonempty := List.cons_ne_nil _ _
  zero _ := rfl

theorem readWhole_append {cs : List Char} (h : WholeDigits cs) (hrest : spanDigits rest = ([], rest)) :
    readWhole (cs.map .char ++ rest) = (cs.map digitOf, rest) := by
  have hspan := spanDigits_append h.digits hrest
  rw [readWhole, hspan]
  cases cs with
  | nil => exact absurd rfl h.nonempty
  | cons c cs =>
    rw [List.map_cons]
    split
    · next hzero =>
      have hdigit : digitOf c = 0 := (List.cons.inj (Prod.mk.inj hzero).1).1
      obtain rfl := eq_zero_of_digitOf (h.digits c List.mem_cons_self) hdigit
      obtain rfl := (List.cons.inj (h.zero rfl)).2
      rfl
    · rfl

theorem readWhole_lt {t left : Text} {digits : List Nat} (h : readWhole t = (digits, left)) :
    ∀ d ∈ digits, d < 10 := by
  unfold readWhole at h
  split at h
  · cases h
    simp
  · exact spanDigits_lt h

theorem readFraction_point {cs : List Char} (hcs : ∀ c ∈ cs, c.isDigit = true) (hne : cs ≠ [])
    (hrest : spanDigits rest = ([], rest)) :
    readFraction (.char '.' :: (cs.map .char ++ rest)) = (some (cs.map digitOf), rest) := by
  rw [readFraction, spanDigits_append hcs hrest]
  cases cs with
  | nil => exact absurd rfl hne
  | cons c cs => rfl

/-- What an exponent spells. -/
def exponentOf (minus : Bool) (cs : List Char) : Int :=
  if minus then -(Nat.ofDigitChars 10 cs 0 : Int) else Nat.ofDigitChars 10 cs 0

/-- The sign of an exponent, if any, and whether it is negative. -/
inductive ExponentSign : Text → Bool → Prop where
  | none : ExponentSign [] false
  | plus : ExponentSign ['+'] false
  | minus : ExponentSign ['-'] true

theorem readExponent_digits {e : CodePoint} (he : e = 'e' ∨ e = 'E') {sign : Text} {negative : Bool}
    (hsign : ExponentSign sign negative) {cs : List Char} (hcs : ∀ c ∈ cs, c.isDigit = true) (hne : cs ≠ [])
    (hrest : spanDigits rest = ([], rest)) :
    readExponent (e :: (sign ++ (cs.map .char ++ rest))) = (some (exponentOf negative cs), rest) := by
  have hspan := spanDigits_append hcs hrest
  rw [exponentOf, ← numberOf_digits]
  cases cs with
  | nil => exact absurd rfl hne
  | cons c cs =>
    rw [List.map_cons, List.cons_append] at hspan ⊢
    cases hsign with
    | none =>
      have hc : c ≠ '-' ∧ c ≠ '+' := by
        constructor <;> rintro rfl <;> exact absurd (hcs _ List.mem_cons_self) (by decide)
      simp [readExponent, he, hspan, hc]
    | plus => simp [readExponent, he, hspan]
    | minus => simp [readExponent, he, hspan]

/-! ## Numerals -/

/-- A text with a sign before it. -/
def signed (negative : Bool) (t : Text) : Text := if negative then .char '-' :: t else t

/-- The number that the parts of a numeral make: an integer when there is neither fraction nor exponent. -/
def assembled (limits : Limits) (negative : Bool) (whole : List Nat) :
    Option (List Nat) → Option Int → Except Stop Value
  | none, none =>
    if limits.digits < whole.length then .error (.tooManyDigits whole.length)
    else .ok (.int (if negative then -(numberOf whole : Int) else numberOf whole))
  | fraction, exponent =>
    .ok (.float (Double.ofDecimal negative (numberOf (whole ++ fraction.getD []))
      (exponent.getD 0 - (fraction.getD []).length)))

/-- A text without a minus sign at its head, and whether it had one. -/
def afterSign : Text → Bool × Text
  | .char '-' :: rest => (true, rest)
  | t => (false, t)

theorem afterSign_eq {t unsigned : Text} {negative : Bool} (h : afterSign t = (negative, unsigned)) :
    t = signed negative unsigned := by
  unfold afterSign at h
  split at h <;> cases h <;> rfl

theorem suffix_signed (negative : Bool) (t : Text) : t <:+ signed negative t := by
  cases negative
  · exact List.suffix_refl _
  · exact List.suffix_cons _ _

/-- What the reader makes of a numeral depends on its parts alone. -/
theorem readNumber_of_parts {t unsigned left left' out : Text} {negative : Bool} {whole : List Nat}
    {fraction : Option (List Nat)} {exponent : Option Int} (hsign : afterSign t = (negative, unsigned))
    (hwhole : readWhole unsigned = (whole, left)) (hne : whole ≠ []) (hfraction : readFraction left = (fraction, left'))
    (hexponent : readExponent left' = (exponent, out)) :
    readNumber limits t = (assembled limits negative whole fraction exponent).map fun v => (v, out) := by
  fun_cases readNumber limits t with
  | case1 _ _ hs _ hw =>
    cases hsign.symm.trans hs
    cases hwhole.symm.trans hw
    exact absurd rfl hne
  | case2 _ _ hs _ _ _ hw _ _ hdigits hf he =>
    cases hsign.symm.trans hs
    cases hwhole.symm.trans hw
    cases hfraction.symm.trans hf
    cases hexponent.symm.trans he
    rw [assembled, if_pos hdigits]
    rfl
  | case3 _ _ hs _ _ _ hw _ _ hdigits hf he =>
    cases hsign.symm.trans hs
    cases hwhole.symm.trans hw
    cases hfraction.symm.trans hf
    cases hexponent.symm.trans he
    rw [assembled, if_neg hdigits]
    rfl
  | case4 _ _ hs _ _ _ hw _ _ hf _ _ he hparts =>
    cases hsign.symm.trans hs
    cases hwhole.symm.trans hw
    cases hfraction.symm.trans hf
    cases hexponent.symm.trans he
    rw [assembled]
    · rfl
    · exact hparts

theorem readNumber_of_nothing {t unsigned left : Text} {negative : Bool} (hsign : afterSign t = (negative, unsigned))
    (hwhole : readWhole unsigned = ([], left)) : readNumber limits t = stopAt .expectedValue t := by
  fun_cases readNumber limits t with
  | case1 => rfl
  | case2 _ _ hs _ _ hne hw =>
    cases hsign.symm.trans hs
    exact absurd (Prod.mk.inj (hw.symm.trans hwhole)).1 hne
  | case3 _ _ hs _ _ hne hw =>
    cases hsign.symm.trans hs
    exact absurd (Prod.mk.inj (hw.symm.trans hwhole)).1 hne
  | case4 _ _ hs _ _ hne hw =>
    cases hsign.symm.trans hs
    exact absurd (Prod.mk.inj (hw.symm.trans hwhole)).1 hne

theorem readNumber_signed {whole : List Char} (hwhole : WholeDigits whole) {tail left out : Text}
    {fraction : Option (List Nat)} {exponent : Option Int} (negative : Bool)
    (htail : spanDigits tail = ([], tail)) (hfraction : readFraction tail = (fraction, left))
    (hexponent : readExponent left = (exponent, out)) :
    readNumber limits (signed negative (whole.map .char ++ tail)) =
      (assembled limits negative (whole.map digitOf) fraction exponent).map fun v => (v, out) := by
  have hsign : afterSign (signed negative (whole.map .char ++ tail)) = (negative, whole.map .char ++ tail) := by
    cases negative with
    | true => rfl
    | false =>
      cases whole with
      | nil => exact absurd rfl hwhole.nonempty
      | cons c cs =>
        have hc : c ≠ '-' := by
          rintro rfl
          exact absurd (hwhole.digits _ List.mem_cons_self) (by decide)
        simp [signed, afterSign, hc]
  have hne : whole.map digitOf ≠ [] := fun h => hwhole.nonempty (List.map_eq_nil_iff.mp h)
  exact readNumber_of_parts hsign (readWhole_append hwhole htail) hne hfraction hexponent

/-! ## Integers -/

theorem ofInt_eq (n : Int) : Text.ofInt n = signed (decide (n < 0)) ((Nat.toDigits 10 n.natAbs).map .char) := by
  by_cases hn : n < 0 <;> simp [Text.ofInt, Text.ofNat, signed, hn]

theorem signed_append (negative : Bool) (t u : Text) : signed negative t ++ u = signed negative (t ++ u) := by
  cases negative <;> rfl

/-- A written integer is read back, unless it has more digits than the reader takes. -/
theorem readNumber_ofInt (n : Int) (hrest : Stops rest) :
    readNumber limits (Text.ofInt n ++ rest) =
      if limits.digits < (Nat.toDigits 10 n.natAbs).length
      then .error (.tooManyDigits (Nat.toDigits 10 n.natAbs).length)
      else .ok (.int n, rest) := by
  rw [ofInt_eq, signed_append, readNumber_signed (whole_toDigits _) _ (spanDigits_of_stops hrest)
    (readFraction_of_stops hrest) (readExponent_of_stops hrest), assembled, List.length_map, numberOf_digits,
    Nat.ofDigitChars_toDigits (by decide) (by decide)]
  split
  · rfl
  · have hvalue : (if decide (n < 0) = true then -(n.natAbs : Int) else n.natAbs) = n := by
      split
      · next hneg =>
        have := of_decide_eq_true hneg
        omega
      · next hnonneg =>
        have := mt decide_eq_true hnonneg
        omega
    rw [hvalue]
    rfl

/-! ## Numbers with a fraction or an exponent -/

theorem WholeDigits.of_head {cs : List Char} (hdigits : ∀ c ∈ cs, c.isDigit = true) (hne : cs ≠ [])
    (hhead : cs.head? ≠ some '0') : WholeDigits cs := ⟨hdigits, hne, fun hzero => absurd hzero hhead⟩

theorem readNumber_point {whole fraction : List Char} (hwhole : WholeDigits whole)
    (hfraction : ∀ c ∈ fraction, c.isDigit = true) (hne : fraction ≠ []) (negative : Bool) (hrest : Stops rest) :
    readNumber limits (signed negative (whole.map .char ++ .char '.' :: (fraction.map .char ++ rest))) =
      .ok (.float (Double.ofDecimal negative (Nat.ofDigitChars 10 (whole ++ fraction) 0) (-fraction.length)),
        rest) := by
  rw [readNumber_signed hwhole _ rfl (readFraction_point hfraction hne (spanDigits_of_stops hrest))
    (readExponent_of_stops hrest), assembled]
  · simp only [Option.getD_some, ← List.map_append, numberOf_digits, List.length_map, Option.getD_none,
      Int.zero_sub]
    rfl
  · exact nofun

theorem readNumber_exponent {whole fraction digits : List Char} (hwhole : WholeDigits whole)
    (hfraction : ∀ c ∈ fraction, c.isDigit = true) (hdigits : ∀ c ∈ digits, c.isDigit = true) (hne : digits ≠ [])
    (negative minus : Bool) (hrest : Stops rest) :
    readNumber limits (signed negative (whole.map .char ++
        ((if fraction.isEmpty then [] else '.' :: fraction).map .char ++
          .char 'e' :: .char (if minus then '-' else '+') :: (digits.map .char ++ rest)))) =
      .ok (.float (Double.ofDecimal negative (Nat.ofDigitChars 10 (whole ++ fraction) 0)
        (exponentOf minus digits - fraction.length)), rest) := by
  have hsign : ExponentSign [.char (if minus then '-' else '+')] minus := by
    cases minus
    · exact .plus
    · exact .minus
  have hexponent := readExponent_digits (.inl rfl) hsign hdigits hne (spanDigits_of_stops hrest)
  rw [List.singleton_append] at hexponent
  cases fraction with
  | nil =>
    have hnone (t : Text) : readFraction (.char 'e' :: t) = (none, .char 'e' :: t) := rfl
    rw [List.isEmpty_nil, if_pos rfl, List.map_nil, List.nil_append,
      readNumber_signed hwhole _ rfl (hnone _) hexponent, assembled]
    · simp only [Option.getD_some, Option.getD_none, List.append_nil, numberOf_digits, List.length_nil]
      rfl
    · exact nofun
  | cons c cs =>
    have hpoint {t : Text} (ht : spanDigits t = ([], t)) := readFraction_point hfraction (by simp) ht
    rw [List.isEmpty_cons, if_neg Bool.false_ne_true, List.map_cons, List.cons_append,
      readNumber_signed hwhole _ rfl (hpoint rfl) hexponent, assembled]
    · simp only [Option.getD_some, ← List.map_append, numberOf_digits, List.length_map]
      rfl
    · exact nofun

/-! ## Written decimals -/

section decimals

variable {d : Decimal}

theorem digits_ofDigitChars (d : Decimal) : Nat.ofDigitChars 10 d.digits 0 = d.coefficient :=
  Nat.ofDigitChars_toDigits (by decide) (by decide)

theorem isDigit_digits (d : Decimal) : ∀ c ∈ d.digits, c.isDigit = true := isDigit_toDigits _

theorem isDigit_zeros (k : Nat) : ∀ c ∈ List.replicate k '0', c.isDigit = true := by
  intro c hc
  rw [List.eq_of_mem_replicate hc]
  rfl

theorem isDigit_append {cs ds : List Char} (hcs : ∀ c ∈ cs, c.isDigit = true) (hds : ∀ c ∈ ds, c.isDigit = true) :
    ∀ c ∈ cs ++ ds, c.isDigit = true :=
  fun c hc => (List.mem_append.mp hc).elim (hcs c) (hds c)

/-- Digits that begin as those of a decimal but zero are whole digits. -/
theorem whole_of_digits (hd : d.coefficient ≠ 0) {cs : List Char} (hcs : ∀ c ∈ cs, c.isDigit = true)
    (hhead : cs.head? = d.digits.head?) : WholeDigits cs := by
  have hzero : cs.head? ≠ some '0' := by
    rw [hhead]
    exact head_toDigits hd
  refine .of_head hcs ?_ hzero
  rintro rfl
  exact Nat.toDigits_ne_nil (List.head?_eq_none_iff.mp hhead.symm)

/-- An exponent above zero is written out as zeros, and one more zero stands behind the point. -/
theorem readNumber_zeros (hd : d.coefficient ≠ 0) (negative : Bool) (hrest : Stops rest) (hexponent : 0 ≤ d.exponent) :
    readNumber limits (signed negative
        ((d.digits ++ List.replicate d.exponent.toNat '0' ++ ['.', '0']).map .char ++ rest)) =
      .ok (.float (Double.ofDecimal negative d.coefficient d.exponent), rest) := by
  have hwhole : WholeDigits (d.digits ++ List.replicate d.exponent.toNat '0') := by
    refine whole_of_digits hd (isDigit_append (isDigit_digits d) (isDigit_zeros _)) ?_
    rw [List.head?_append, Option.or_of_isSome]
    exact List.isSome_head?.mpr Nat.toDigits_ne_nil
  have hshape : (d.digits ++ List.replicate d.exponent.toNat '0' ++ ['.', '0']).map .char ++ rest =
      (d.digits ++ List.replicate d.exponent.toNat '0').map .char ++
        .char '.' :: (['0'].map .char ++ rest) := by
    simp
  have hvalue : Nat.ofDigitChars 10 (d.digits ++ List.replicate d.exponent.toNat '0' ++ ['0']) 0 =
      d.coefficient * 10 ^ (d.exponent.toNat + 1) := by
    have hzeros : List.replicate d.exponent.toNat '0' ++ ['0'] = List.replicate (d.exponent.toNat + 1) '0' :=
      List.replicate_succ'.symm
    rw [List.append_assoc, hzeros, Nat.ofDigitChars_append, Nat.ofDigitChars_replicate_zero, digits_ofDigitChars,
      Nat.mul_comm]
  have hten : -((['0'] : List Char).length : Int) + (d.exponent.toNat + 1 : Nat) = d.exponent := by
    simp only [List.length_singleton]
    omega
  rw [hshape, readNumber_point hwhole whole_zero.digits whole_zero.nonempty negative hrest, hvalue,
    Double.ofDecimal_mul_pow hd, hten]

/-- A point among the digits. -/
theorem readNumber_inside (hd : d.coefficient ≠ 0) (negative : Bool) (hrest : Stops rest) {point : Int}
    (hpoint : point = d.digits.length + d.exponent) (hexponent : d.exponent < 0) (hpos : 0 < point) :
    readNumber limits (signed negative
        ((d.digits.take point.toNat ++ ['.'] ++ d.digits.drop point.toNat).map .char ++ rest)) =
      .ok (.float (Double.ofDecimal negative d.coefficient d.exponent), rest) := by
  have hwhole : WholeDigits (d.digits.take point.toNat) := by
    refine whole_of_digits hd (fun c hc => isDigit_digits d c (List.mem_of_mem_take hc)) ?_
    rw [List.head?_take, if_neg (by omega)]
  have hshape : (d.digits.take point.toNat ++ ['.'] ++ d.digits.drop point.toNat).map .char ++ rest =
      (d.digits.take point.toNat).map .char ++ .char '.' :: ((d.digits.drop point.toNat).map .char ++ rest) := by
    simp
  have hfraction : ((d.digits.drop point.toNat).length : Int) = -d.exponent := by
    rw [List.length_drop]
    omega
  have hne : d.digits.drop point.toNat ≠ [] := by
    rw [ne_eq, List.drop_eq_nil_iff]
    omega
  rw [hshape, readNumber_point hwhole (fun c hc => isDigit_digits d c (List.mem_of_mem_drop hc)) hne negative hrest,
    List.take_append_drop, digits_ofDigitChars, hfraction, Int.neg_neg]

/-- A point ahead of the digits, with zeros between. -/
theorem readNumber_ahead (negative : Bool) (hrest : Stops rest) {point : Int}
    (hpoint : point = d.digits.length + d.exponent) (hnonpos : point ≤ 0) :
    readNumber limits (signed negative
        ((['0', '.'] ++ List.replicate (-point).toNat '0' ++ d.digits).map .char ++ rest)) =
      .ok (.float (Double.ofDecimal negative d.coefficient d.exponent), rest) := by
  have hshape : (['0', '.'] ++ List.replicate (-point).toNat '0' ++ d.digits).map .char ++ rest =
      ['0'].map .char ++ .char '.' :: ((List.replicate (-point).toNat '0' ++ d.digits).map .char ++ rest) := by
    simp
  have hvalue : Nat.ofDigitChars 10 (['0'] ++ (List.replicate (-point).toNat '0' ++ d.digits)) 0 = d.coefficient := by
    have hzero : Nat.ofDigitChars 10 ['0'] 0 = 0 := rfl
    rw [Nat.ofDigitChars_append, Nat.ofDigitChars_append, hzero, Nat.ofDigitChars_replicate_zero, Nat.mul_zero,
      digits_ofDigitChars]
  have hfraction : ((List.replicate (-point).toNat '0' ++ d.digits).length : Int) = -d.exponent := by
    rw [List.length_append, List.length_replicate]
    omega
  have hne : List.replicate (-point).toNat '0' ++ d.digits ≠ [] :=
    List.append_ne_nil_of_right_ne_nil _ Nat.toDigits_ne_nil
  have hdigits := isDigit_append (isDigit_zeros (-point).toNat) (isDigit_digits d)
  rw [hshape, readNumber_point whole_zero hdigits hne negative hrest, hvalue, hfraction, Int.neg_neg]

theorem readNumber_positional (hd : d.coefficient ≠ 0) (negative : Bool) (hrest : Stops rest) :
    readNumber limits (signed negative ((FloatStyle.positional d).map .char ++ rest)) =
      .ok (.float (Double.ofDecimal negative d.coefficient d.exponent), rest) := by
  unfold FloatStyle.positional
  dsimp only
  split
  · next hexponent => exact readNumber_zeros hd negative hrest hexponent
  · next hexponent =>
    split
    · next hpoint => exact readNumber_inside hd negative hrest rfl (Int.not_le.mp hexponent) hpoint
    · next hpoint => exact readNumber_ahead negative hrest rfl (Int.not_lt.mp hpoint)

theorem readNumber_scientific (hd : d.coefficient ≠ 0) (width : Nat) (negative : Bool) (hrest : Stops rest) :
    readNumber limits (signed negative ((FloatStyle.scientific width d).map .char ++ rest)) =
      .ok (.float (Double.ofDecimal negative d.coefficient d.exponent), rest) := by
  have hlength : 0 < d.digits.length := Nat.length_toDigits_pos
  have hwhole : WholeDigits (d.digits.take 1) := by
    refine whole_of_digits hd (fun c hc => isDigit_digits d c (List.mem_of_mem_take hc)) ?_
    rw [List.head?_take, if_neg (by omega)]
  have hfraction : ∀ c ∈ d.digits.drop 1, c.isDigit = true :=
    fun c hc => isDigit_digits d c (List.mem_of_mem_drop hc)
  let digits := List.replicate (width - (Nat.toDigits 10 d.leading.natAbs).length) '0' ++
    Nat.toDigits 10 d.leading.natAbs
  have hdigits : ∀ c ∈ digits, c.isDigit = true := isDigit_append (isDigit_zeros _) (isDigit_toDigits _)
  have hne : digits ≠ [] := List.append_ne_nil_of_right_ne_nil _ Nat.toDigits_ne_nil
  have hshape : (FloatStyle.scientific width d).map .char ++ rest =
      (d.digits.take 1).map .char ++ ((if (d.digits.drop 1).isEmpty then [] else '.' :: d.digits.drop 1).map .char ++
        .char 'e' :: .char (if decide (d.leading < 0) = true then '-' else '+') :: (digits.map .char ++ rest)) := by
    simp [FloatStyle.scientific, digits]
  have hexponent : exponentOf (decide (d.leading < 0)) digits = d.leading := by
    have hvalue : Nat.ofDigitChars 10 digits 0 = d.leading.natAbs := by
      rw [Nat.ofDigitChars_append, Nat.ofDigitChars_replicate_zero, Nat.mul_zero,
        Nat.ofDigitChars_toDigits (by decide) (by decide)]
    rw [exponentOf, hvalue]
    simp only [decide_eq_true_eq]
    split <;> omega
  have hleading : d.leading - ((d.digits.drop 1).length : Int) = d.exponent := by
    rw [Decimal.leading, List.length_drop]
    omega
  rw [hshape, readNumber_exponent hwhole hfraction hdigits hne negative _ hrest, List.take_append_drop,
    digits_ofDigitChars, hexponent, hleading]

end decimals

/-! ## Binary64 numbers -/

theorem writeFloat_finite (negative : Bool) (place : Fin finitePlaces) :
    writeFloat (.finite negative place) = signed negative ((FloatStyle.wire.magnitude place).map .char) := by
  cases negative <;> rfl

/-- A written finite number is read back to the last bit, and with its sign. -/
theorem readNumber_writeFloat {x : Double} (hx : x.isFinite = true) (hrest : Stops rest) :
    readNumber limits (writeFloat x ++ rest) = .ok (.float x, rest) := by
  cases x with
  | nan => cases hx
  | infinite => cases hx
  | finite negative place =>
    rw [writeFloat_finite, signed_append, FloatStyle.magnitude]
    split
    · next hzero =>
      -- zero keeps its sign, which no digit tells
      have hshape : (['0', '.', '0'] : List Char).map .char ++ rest =
          (['0'] : List Char).map .char ++ .char '.' :: ((['0'] : List Char).map .char ++ rest) := rfl
      have hplace : place = 0 := Fin.ext hzero
      rw [hshape, readNumber_point whole_zero whole_zero.digits whole_zero.nonempty negative hrest, hplace]
      rfl
    · next hplace =>
      have hread := Decimal.ofDecimal_shortest hplace negative
      have hcoefficient := Decimal.coefficient_shortest hplace
      dsimp only
      split
      · rw [readNumber_positional hcoefficient negative hrest, hread]
      · rw [readNumber_scientific hcoefficient _ negative hrest, hread]

/-! ## Where numbers are looked for -/

/-- A text that begins with a digit, or with a minus sign and a digit. -/
def Numeric (t : Text) : Prop := ∃ negative c u, t = signed negative (.char c :: u) ∧ c.isDigit = true

theorem eq_char_of_digit? {c : CodePoint} {n : Nat} (h : c.digit? = some n) :
    ∃ d, c = .char d ∧ d.isDigit = true := by
  cases c with
  | char d =>
    rw [CodePoint.digit?] at h
    split at h
    · next hd => exact ⟨d, rfl, hd⟩
    · cases h
  | surrogate => cases h

theorem head_of_readWhole {t left : Text} {digits : List Nat} (h : readWhole t = (digits, left)) (hne : digits ≠ []) :
    ∃ c u, t = .char c :: u ∧ c.isDigit = true := by
  cases t with
  | nil =>
    cases h
    exact absurd rfl hne
  | cons c u =>
    cases hc : c.digit? with
    | some n =>
      obtain ⟨d, rfl, hd⟩ := eq_char_of_digit? hc
      exact ⟨d, u, rfl, hd⟩
    | none =>
      have hspan : spanDigits (c :: u) = ([], c :: u) := by rw [spanDigits, hc]
      rw [readWhole, hspan] at h
      cases h
      exact absurd rfl hne

theorem numeric_of_sign {t unsigned left : Text} {negative : Bool} {digits : List Nat}
    (hsign : afterSign t = (negative, unsigned)) (hwhole : readWhole unsigned = (digits, left)) (hne : digits ≠ []) :
    Numeric t := by
  obtain ⟨c, u, rfl, hc⟩ := head_of_readWhole hwhole hne
  exact ⟨negative, c, u, afterSign_eq hsign, hc⟩

/-- What does not begin like a number is not read as one. -/
theorem readNumber_of_not_numeric {t : Text} (h : ¬ Numeric t) : readNumber limits t = stopAt .expectedValue t := by
  rcases hsign : afterSign t with ⟨negative, unsigned⟩
  rcases hwhole : readWhole unsigned with ⟨digits, left⟩
  cases digits with
  | nil => exact readNumber_of_nothing hsign hwhole
  | cons d ds => exact absurd (numeric_of_sign hsign hwhole (List.cons_ne_nil d ds)) h

/-- So many digits stand side by side in a text. -/
def HasDigits (n : Nat) (t : Text) : Prop :=
  ∃ cs : List Char, cs.length = n ∧ (∀ c ∈ cs, c.isDigit = true) ∧ cs.map .char <:+: t

/-- The digits at the head of a text are what stands before the rest. -/
theorem spanDigits_eq {t left : Text} {digits : List Nat} (h : spanDigits t = (digits, left)) :
    ∃ cs : List Char, cs.map digitOf = digits ∧ (∀ c ∈ cs, c.isDigit = true) ∧ t = cs.map .char ++ left := by
  induction t generalizing digits left with
  | nil =>
    cases h
    exact ⟨[], rfl, by simp, rfl⟩
  | cons c t ih =>
    rw [spanDigits] at h
    split at h
    · next d hd =>
      cases h
      obtain ⟨e, rfl, he⟩ := eq_char_of_digit? hd
      obtain ⟨cs, hvalues, hcs, ht⟩ := ih rfl
      obtain rfl : digitOf e = d := Option.some.inj ((digit?_of_isDigit he).symm.trans hd)
      refine ⟨e :: cs, by rw [List.map_cons, hvalues], List.forall_mem_cons.mpr ⟨he, hcs⟩, ?_⟩
      rw [List.map_cons, List.cons_append, ← ht]
    · cases h
      exact ⟨[], rfl, by simp, rfl⟩

theorem readWhole_eq {t left : Text} {digits : List Nat} (h : readWhole t = (digits, left)) (hne : digits ≠ []) :
    ∃ cs : List Char, cs.map digitOf = digits ∧ WholeDigits cs ∧ t = cs.map .char ++ left := by
  unfold readWhole at h
  split at h
  · next ds left' hspan =>
    cases h
    obtain ⟨cs, hvalues, hcs, rfl⟩ := spanDigits_eq hspan
    cases cs with
    | nil => cases hvalues
    | cons c cs =>
      have hc : digitOf c = 0 := (List.cons.inj hvalues).1
      obtain rfl := eq_zero_of_digitOf (hcs c List.mem_cons_self) hc
      exact ⟨['0'], rfl, whole_zero, rfl⟩
  · next hzero =>
    obtain ⟨cs, hvalues, hcs, rfl⟩ := spanDigits_eq h
    have hhead : cs.head? ≠ some '0' := by
      intro hhead
      obtain ⟨cs, rfl⟩ := List.head?_eq_some_iff.mp hhead
      exact hzero _ _ (h.trans (Prod.ext hvalues.symm rfl))
    refine ⟨cs, hvalues, .of_head hcs ?_ hhead, rfl⟩
    rintro rfl
    exact hne hvalues.symm

/-- What a fraction is read from stands for itself: it is the same before all that no number goes on with. -/
theorem readFraction_eq {t left : Text} {fraction : Option (List Nat)} (h : readFraction t = (fraction, left)) :
    ∃ s, t = s ++ left ∧ ∀ ⦃rest⦄, spanDigits rest = ([], rest) → readFraction rest = (none, rest) →
      spanDigits (s ++ rest) = ([], s ++ rest) ∧ readFraction (s ++ rest) = (fraction, rest) := by
  unfold readFraction at h
  split at h
  · split at h
    · cases h
      exact ⟨[], rfl, fun _ hspan hfraction => ⟨hspan, hfraction⟩⟩
    · next digits left' hne hspan =>
      cases h
      obtain ⟨cs, rfl, hcs, rfl⟩ := spanDigits_eq hspan
      have hcsne : cs ≠ [] := by
        rintro rfl
        exact hne rfl
      exact ⟨.char '.' :: cs.map .char, rfl, fun rest hspan _ => ⟨rfl, readFraction_point hcs hcsne hspan⟩⟩
  · cases h
    exact ⟨[], rfl, fun _ hspan hfraction => ⟨hspan, hfraction⟩⟩

theorem readExponent_eq {t left : Text} {exponent : Option Int} (h : readExponent t = (exponent, left)) :
    ∃ s, t = s ++ left ∧ ∀ ⦃rest⦄, Stops rest → spanDigits (s ++ rest) = ([], s ++ rest) ∧
      readFraction (s ++ rest) = (none, s ++ rest) ∧ readExponent (s ++ rest) = (exponent, rest) := by
  have hnone : ∀ ⦃rest⦄, Stops rest → spanDigits rest = ([], rest) ∧ readFraction rest = (none, rest) ∧
      readExponent rest = (none, rest) := fun rest hrest =>
    ⟨spanDigits_of_stops hrest, readFraction_of_stops hrest, readExponent_of_stops hrest⟩
  unfold readExponent at h
  split at h
  · next e u =>
    split at h
    · next he =>
      split at h
      next negative unsigned hsign =>
      split at h
      · cases h
        exact ⟨[], rfl, hnone⟩
      · next digits left' hne hspan =>
        cases h
        obtain ⟨cs, rfl, hcs, rfl⟩ := spanDigits_eq hspan
        obtain ⟨sign, hu, hsigned⟩ : ∃ sign, u = sign ++ (cs.map .char ++ left) ∧ ExponentSign sign negative := by
          split at hsign
          · cases hsign
            exact ⟨['-'], rfl, .minus⟩
          · cases hsign
            exact ⟨['+'], rfl, .plus⟩
          · cases hsign
            exact ⟨[], rfl, .none⟩
        have hcsne : cs ≠ [] := by
          rintro rfl
          exact hne rfl
        refine ⟨e :: (sign ++ cs.map .char), by simp [hu], fun rest hrest => ?_⟩
        have hread := readExponent_digits he hsigned hcs hcsne (spanDigits_of_stops hrest)
        rw [exponentOf, ← numberOf_digits] at hread
        rw [List.cons_append, List.append_assoc]
        exact ⟨by obtain rfl | rfl := he <;> rfl, by obtain rfl | rfl := he <;> rfl, hread⟩
    · cases h
      exact ⟨[], rfl, hnone⟩
  · cases h
    exact ⟨[], rfl, hnone⟩
/-- Whether a text starts with a number, and with which one, does not depend on the limits. -/
inductive NumberAt (t : Text) : Prop where
  | nothing (h : ∀ limits, readNumber limits t = stopAt .expectedValue t)
  | int (n : Int) (digits : List Nat) (left : Text) (hn : n.natAbs = numberOf digits) (hne : digits ≠ [])
      (hdigits : ∀ d ∈ digits, d < 10) (hspelled : HasDigits digits.length t) (hleft : left <:+ t)
      (h : ∀ limits : Limits, readNumber limits t =
        if limits.digits < digits.length then .error (.tooManyDigits digits.length) else .ok (.int n, left))
  | float (x : Double) (left : Text) (hleft : left <:+ t) (h : ∀ limits, readNumber limits t = .ok (.float x, left))

theorem numberAt (t : Text) : NumberAt t := by
  rcases hsign : afterSign t with ⟨negative, unsigned⟩
  rcases hwhole : readWhole unsigned with ⟨digits, left⟩
  cases digits with
  | nil => exact .nothing fun limits => readNumber_of_nothing hsign hwhole
  | cons d ds =>
    rcases hfraction : readFraction left with ⟨fraction, left'⟩
    rcases hexponent : readExponent left' with ⟨exponent, out⟩
    have hread (limits : Limits) : readNumber limits t = (assembled limits _ _ _ _).map _ :=
      readNumber_of_parts hsign hwhole (List.cons_ne_nil d ds) hfraction hexponent
    obtain ⟨cs, hvalues, hcs, rfl⟩ := readWhole_eq hwhole (List.cons_ne_nil d ds)
    obtain ⟨f, rfl, -⟩ := readFraction_eq hfraction
    obtain ⟨e, rfl, -⟩ := readExponent_eq hexponent
    have hunsigned := afterSign_eq hsign ▸ suffix_signed negative _
    have hleft : out <:+ t :=
      (((List.suffix_append e out).trans (List.suffix_append f _)).trans (List.suffix_append _ _)).trans hunsigned
    cases fraction with
    | some fraction => exact .float _ out hleft hread
    | none =>
      cases exponent with
      | some exponent => exact .float _ out hleft hread
      | none =>
        have hspelled : HasDigits (d :: ds).length t :=
          ⟨cs, by rw [← hvalues, List.length_map], hcs.digits,
            (List.prefix_append _ _).isInfix.trans hunsigned.isInfix⟩
        refine .int (if negative then -(numberOf (d :: ds) : Int) else numberOf (d :: ds)) (d :: ds) out ?_
          (List.cons_ne_nil d ds) (readWhole_lt hwhole) hspelled hleft fun limits => ?_
        · cases negative <;> simp
        · rw [hread limits, assembled]
          split <;> rfl

theorem readLayer_of_numeric {t : Text} (h : Numeric t) (inside : Reader Value) :
    readLayer limits inside t = readNumber limits t := by
  obtain ⟨negative, c, u, rfl, hc⟩ := h
  have hne (d : Char) (hd : d.isDigit = false) : c ≠ d := by
    rintro rfl
    rw [hc] at hd
    cases hd
  cases negative with
  | true =>
    simp [readLayer, readScalar, signed, after?, Text.ofString, (hne 'I' (by decide)).symm]
  | false =>
    simp [readLayer, readScalar, signed, after?, Text.ofString, hne '"' (by decide), hne '[' (by decide),
      hne '{' (by decide), (hne 'n' (by decide)).symm, (hne 't' (by decide)).symm, (hne 'f' (by decide)).symm,
      (hne 'N' (by decide)).symm, (hne 'I' (by decide)).symm, (hne '-' (by decide)).symm]

/-! ## Numbers among values -/

/-- Wherever a value may stand, a written integer is read back, unless it has too many digits. -/
theorem readLayer_ofInt (inside : Reader Value) (n : Int) (hrest : Stops rest) :
    readLayer limits inside (Text.ofInt n ++ rest) =
      if limits.digits < (Nat.toDigits 10 n.natAbs).length
      then .error (.tooManyDigits (Nat.toDigits 10 n.natAbs).length)
      else .ok (.int n, rest) := by
  have hread : readNumber limits (Text.ofInt n ++ rest) = _ := readNumber_ofInt n hrest
  have hnumeric : Numeric (Text.ofInt n ++ rest) := by
    refine Classical.byContradiction fun hnot => ?_
    rw [readNumber_of_not_numeric hnot] at hread
    split at hread <;> cases hread
  rw [readLayer_of_numeric hnumeric, hread]

theorem readLayer_writeFloat (inside : Reader Value) {x : Double} (hx : x.isFinite = true) (hrest : Stops rest) :
    readLayer limits inside (writeFloat x ++ rest) = .ok (.float x, rest) := by
  have hread : readNumber limits (writeFloat x ++ rest) = _ := readNumber_writeFloat hx hrest
  have hnumeric : Numeric (writeFloat x ++ rest) := by
    refine Classical.byContradiction fun hnot => ?_
    rw [readNumber_of_not_numeric hnot] at hread
    cases hread
  rw [readLayer_of_numeric hnumeric, hread]

end Json

end MessageBus
