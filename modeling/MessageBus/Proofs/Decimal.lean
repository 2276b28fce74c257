import Mathlib.Algebra.Group.Nat.Defs
import MessageBus.Number.Shortest

/-!
# Decimals that read back

The shortest decimal of a magnitude reads back as that magnitude (`Decimal.ofDecimal_shortest`). A hit on a grid
does so because it was tested. It stays to be shown that dropping zeros changes nothing, since rounding depends
on the quotient alone (`nearestPlace_congr`), and that the exact expansion, the last resort, reads back: its
magnitude is a multiple of the distance between neighbours, and is not rounded at all.
-/

namespace MessageBus

namespace Double

theorem two_pow_pos (k : Nat) : 0 < Nat.pow 2 k := Nat.two_pow_pos k

theorem ten_pow_pos (k : Nat) : 0 < Nat.pow 10 k := Nat.pow_pos (by decide)

/-! ## Rounding a quotient -/

theorem roundedQuotient_scale {k : Nat} (hk : 0 < k) (n d : Nat) :
    roundedQuotient (n * k) (d * k) = roundedQuotient n d := by
  have hquotient : n * k / (d * k) = n / d := Nat.mul_div_mul_right n d hk
  have hrest : n * k % (d * k) = n % d * k := Nat.mul_mod_mul_right k n d
  have hbelow : 2 * (n % d * k) < d * k ↔ 2 * (n % d) < d := by
    rw [← Nat.mul_assoc]
    exact Nat.mul_lt_mul_right hk
  have habove : d * k < 2 * (n % d * k) ↔ d < 2 * (n % d) := by
    rw [← Nat.mul_assoc]
    exact Nat.mul_lt_mul_right hk
  simp only [roundedQuotient, hquotient, hrest, hbelow, habove]

/-- A whole quotient is not rounded. -/
theorem roundedQuotient_whole {d : Nat} (hd : 0 < d) (q : Nat) : roundedQuotient (q * d) d = q := by
  simp [roundedQuotient, hd]

theorem nearestPlace_scale {k : Nat} (hk : 0 < k) (n d : Nat) : nearestPlace (n * k) (d * k) = nearestPlace n d := by
  unfold nearestPlace
  generalize Nat.pow 2 1074 = unit
  have hquotient : n * k * unit / (d * k) = n * unit / d := by
    rw [Nat.mul_right_comm]
    exact Nat.mul_div_mul_right _ _ hk
  have hrounded (doubled : Nat) : roundedQuotient (n * k * unit) (d * k * Nat.pow 2 doubled) =
      roundedQuotient (n * unit) (d * Nat.pow 2 doubled) := by
    rw [Nat.mul_right_comm n, Nat.mul_right_comm d]
    exact roundedQuotient_scale hk _ _
  simp only [hquotient, hrounded]

/-- The nearest place depends on the quotient only. -/
theorem nearestPlace_congr {n d n' d' : Nat} (hd : 0 < d) (hd' : 0 < d') (h : n * d' = n' * d) :
    nearestPlace n d = nearestPlace n' d' :=
  calc nearestPlace n d = nearestPlace (n * d') (d * d') := (nearestPlace_scale hd' n d).symm
    _ = nearestPlace (n' * d) (d' * d) := by rw [h, Nat.mul_comm d]
    _ = nearestPlace n' d' := nearestPlace_scale hd n' d'

/-! ## Magnitudes are where they are -/

/-- A place is so many doublings and a significand, which fills its 53 bits once there is a doubling. -/
theorem multiple_eq (place : Nat) :
    ∃ significand, place = doublings place * Nat.pow 2 52 + significand ∧
      multiple place = significand * Nat.pow 2 (doublings place) ∧ significand < 2 ^ 53 ∧
      (doublings place = 0 ∨ 2 ^ 52 ≤ significand) := by
  have hunit : Nat.pow 2 52 = 4503599627370496 := rfl
  refine ⟨place - doublings place * Nat.pow 2 52, ?_, rfl, ?_, ?_⟩ <;> unfold doublings <;> rw [hunit] <;> omega

theorem log2_multiple (place : Nat) : Nat.log2 (multiple place) - 52 = doublings place := by
  obtain ⟨significand, _, hmultiple, hbelow, hfull⟩ := multiple_eq place
  rw [hmultiple]
  rcases hfull with hnone | hfull
  · rw [hnone]
    have hone : significand * Nat.pow 2 0 = significand := Nat.mul_one significand
    rw [hone]
    rcases Nat.eq_zero_or_pos significand with rfl | hpos
    · rfl
    · have hlog := (Nat.log2_lt (Nat.ne_of_gt hpos)).mpr hbelow
      omega
  · have hpos : 0 < 2 ^ doublings place := Nat.two_pow_pos _
    have hne : significand * 2 ^ doublings place ≠ 0 := Nat.mul_ne_zero (by omega) (by omega)
    have hlog : Nat.log2 (significand * 2 ^ doublings place) = 52 + doublings place := by
      refine (Nat.log2_eq_iff hne).mpr ⟨?_, ?_⟩
      · rw [Nat.pow_add]
        exact Nat.mul_le_mul_right _ hfull
      · rw [Nat.add_right_comm, Nat.pow_add]
        exact (Nat.mul_lt_mul_right hpos).mpr hbelow
    have hshown : Nat.log2 (significand * Nat.pow 2 (doublings place)) = 52 + doublings place := hlog
    rw [hshown]
    omega

/-- A quotient that is the magnitude at a place is not rounded. -/
theorem nearestPlace_of_exact {n d place : Nat} (hd : 0 < d) (h : n * Nat.pow 2 1074 = multiple place * d) :
    nearestPlace n d = place := by
  obtain ⟨significand, hplace, hmultiple, _⟩ := multiple_eq place
  have hwhole : multiple place * d = significand * (d * Nat.pow 2 (doublings place)) := by
    rw [hmultiple, Nat.mul_assoc, Nat.mul_comm d]
  unfold nearestPlace
  rw [h, Nat.mul_div_cancel _ hd]
  dsimp only
  rw [log2_multiple, hwhole, roundedQuotient_whole (Nat.mul_pos hd (two_pow_pos _)), ← hplace]

/-! ## Decimals of the same value -/

theorem length_toDigits_mul {n : Nat} (hn : n ≠ 0) :
    (Nat.toDigits 10 (n * 10)).length = (Nat.toDigits 10 n).length + 1 := by
  rw [Nat.toDigits_of_base_le (by decide) (by omega), Nat.mul_div_cancel _ (by decide)]
  simp

theorem lt_length_toDigits {n k : Nat} (hk : 0 < k) (h : Nat.pow 10 k ≤ n) : k < (Nat.toDigits 10 n).length :=
  Nat.lt_of_not_le fun hle => Nat.not_lt.mpr h ((Nat.length_toDigits_le_iff (by decide) hk).mp hle)

theorem length_toDigits_le {n k : Nat} (hk : 0 < k) (h : n < Nat.pow 10 k) : (Nat.toDigits 10 n).length ≤ k :=
  (Nat.length_toDigits_le_iff (by decide) hk).mpr h

/-- A zero at the end of the digits is one more in the exponent. -/
theorem ofDecimal_mul_ten {digits : Nat} (hdigits : digits ≠ 0) (negative : Bool) (exponent : Int) :
    ofDecimal negative (digits * 10) exponent = ofDecimal negative digits (exponent + 1) := by
  have hratio : digits * 10 * Nat.pow 10 exponent.toNat * Nat.pow 10 (-(exponent + 1)).toNat =
      digits * Nat.pow 10 (exponent + 1).toNat * Nat.pow 10 (-exponent).toNat := by
    have hexponents : 1 + exponent.toNat + (-(exponent + 1)).toNat = (exponent + 1).toNat + (-exponent).toNat := by
      omega
    calc digits * 10 ^ 1 * 10 ^ exponent.toNat * 10 ^ (-(exponent + 1)).toNat
        = digits * 10 ^ (1 + exponent.toNat + (-(exponent + 1)).toNat) := by
          rw [Nat.pow_add, Nat.pow_add, Nat.mul_assoc, Nat.mul_assoc, Nat.mul_assoc]
      _ = digits * 10 ^ (exponent + 1).toNat * 10 ^ (-exponent).toNat := by
          rw [hexponents, Nat.pow_add, Nat.mul_assoc]
  have hlength : ((Nat.toDigits 10 (digits * 10)).length : Int) + exponent =
      (Nat.toDigits 10 digits).length + (exponent + 1) := by
    rw [length_toDigits_mul hdigits]
    omega
  have hne : digits * 10 ≠ 0 := by omega
  simp only [ofDecimal, hdigits, hne, hlength, nearest, nearestPlace_congr (ten_pow_pos _) (ten_pow_pos _) hratio]

theorem ofDecimal_mul_pow {digits : Nat} (hdigits : digits ≠ 0) (negative : Bool) (k : Nat) (exponent : Int) :
    ofDecimal negative (digits * 10 ^ k) exponent = ofDecimal negative digits (exponent + k) := by
  induction k generalizing exponent with
  | zero => simp
  | succ k ih =>
    have hne : digits * 10 ^ k ≠ 0 := Nat.mul_ne_zero hdigits (Nat.ne_of_gt (Nat.pow_pos (by decide)))
    rw [Nat.pow_succ, ← Nat.mul_assoc, ofDecimal_mul_ten hne, ih]
    congr 1
    omega

/-- The sign of a decimal is passed on. -/
theorem ofDecimal_sign {digits : Nat} {exponent : Int} {place : Fin finitePlaces}
    (h : ofDecimal false digits exponent = .finite false place) (negative : Bool) :
    ofDecimal negative digits exponent = .finite negative place := by
  have hplace {n : Nat} (hn : ofPlace false n = .finite false place) : ofPlace negative n = .finite negative place := by
    unfold ofPlace at hn ⊢
    by_cases hlt : n < finitePlaces
    · rw [dif_pos hlt] at hn ⊢
      cases hn
      rfl
    · rw [dif_neg hlt] at hn
      cases hn
  unfold ofDecimal at h ⊢
  dsimp only at h ⊢
  by_cases hzero : digits = 0
  · rw [if_pos hzero] at h ⊢
    cases h
    rfl
  rw [if_neg hzero] at h ⊢
  split at h
  · cases h
  · next hsmall =>
    rw [if_neg hsmall]
    split at h
    · next htiny =>
      rw [if_pos htiny]
      cases h
      rfl
    · next hlarge =>
      rw [if_neg hlarge]
      exact hplace h

end Double

namespace Decimal

variable {place : Fin finitePlaces}

theorem ofDecimal_withoutZeros (negative : Bool) (fuel : Nat) (d : Decimal) :
    Double.ofDecimal negative (withoutZeros fuel d).coefficient (withoutZeros fuel d).exponent =
      Double.ofDecimal negative d.coefficient d.exponent := by
  fun_induction withoutZeros fuel d with
  | case1 => rfl
  | case2 fuel d hzero ih =>
    have hten : d.coefficient / 10 * 10 = d.coefficient := Nat.div_mul_cancel (Nat.dvd_of_mod_eq_zero hzero.2)
    have hne : d.coefficient / 10 ≠ 0 := by omega
    rw [ih, ← Double.ofDecimal_mul_ten hne, hten]
  | case3 => rfl

theorem reads_of_onGrid? {value d : Decimal} {cut : Nat} (h : onGrid? place value cut = some d) :
    reads place d = true := by
  unfold onGrid? at h
  dsimp only at h
  split at h
  · next hfloor hceiling =>
    split at h
    · cases h
      exact hfloor
    · split at h
      · cases h
        exact hceiling
      · split at h
        · cases h
          exact hfloor
        · cases h
          exact hceiling
  · next hfloor _ =>
    cases h
    exact hfloor
  · next _ hceiling =>
    cases h
    exact hceiling
  · cases h

/-! ## The exact expansion -/

theorem multiple_pos (h : place.val ≠ 0) : 0 < Double.multiple place := by
  obtain ⟨significand, hplace, hmultiple, _, hfull⟩ := Double.multiple_eq place
  rw [hmultiple]
  refine Nat.mul_pos ?_ (Double.two_pow_pos _)
  rcases hfull with hnone | hfull
  · rw [hnone] at hplace
    omega
  · omega

/-- The greatest magnitude has 53 bits and 971 zeros before the point. -/
theorem multiple_lt (place : Fin finitePlaces) : Double.multiple place < Nat.pow 2 (53 + (971 + 1074)) := by
  obtain ⟨significand, _, hmultiple, hbelow, _⟩ := Double.multiple_eq place
  have hdoublings : Double.doublings place ≤ 971 + 1074 := by
    have hplace := place.isLt
    have hunit : Nat.pow 2 52 = 4503599627370496 := rfl
    simp only [finitePlaces, hunit] at hplace
    unfold Double.doublings
    rw [hunit]
    omega
  generalize 971 + 1074 = greatest at hdoublings ⊢
  calc Double.multiple place = significand * 2 ^ Double.doublings place := hmultiple
    _ < 2 ^ 53 * 2 ^ Double.doublings place := (Nat.mul_lt_mul_right (Nat.two_pow_pos _)).mpr hbelow
    _ ≤ 2 ^ 53 * 2 ^ greatest := Nat.mul_le_mul_left _ (Nat.pow_le_pow_right (by decide) hdoublings)
    _ = 2 ^ (53 + greatest) := (Nat.pow_add 2 53 greatest).symm

/-- The exact expansion, with the power of ten kept from being computed. -/
theorem exact_eq (place : Fin finitePlaces) :
    ∃ k, k = 1074 ∧ exact place = ⟨Double.multiple place * Nat.pow 5 k, -(k : Int)⟩ := ⟨1074, rfl, rfl⟩

/-- The exact expansion has so many digits that their count alone makes it neither zero nor infinite. -/
theorem length_exact (h : place.val ≠ 0) {k : Nat} (hk : k = 1074) :
    let length := (Nat.toDigits 10 (Double.multiple place * Nat.pow 5 k)).length
    750 < length ∧ length ≤ 310 + 1074 := by
  obtain ⟨least, hleast⟩ : ∃ least, least = 750 := ⟨_, rfl⟩
  have hbelow : Nat.pow 10 least ≤ Nat.pow 5 k := by
    rw [hleast, hk]
    decide +kernel
  have habove : Nat.pow 2 (53 + (971 + 1074)) * Nat.pow 5 k ≤ Nat.pow 10 (310 + 1074) := by
    rw [hk]
    decide +kernel
  have hpos : 0 < Nat.pow 5 k := Nat.pow_pos (by decide)
  have hmany : Nat.pow 10 least ≤ Double.multiple place * Nat.pow 5 k :=
    Nat.le_trans hbelow (Nat.le_mul_of_pos_left (Nat.pow 5 k) (multiple_pos h))
  have hfew := (Nat.mul_lt_mul_right hpos).mpr (multiple_lt place)
  constructor
  · rw [← hleast]
    exact Double.lt_length_toDigits (by omega) hmany
  · exact Double.length_toDigits_le (by decide) (Nat.lt_of_lt_of_le hfew habove)

theorem reads_exact (h : place.val ≠ 0) : reads place (exact place) = true := by
  obtain ⟨k, hk, hexact⟩ := exact_eq place
  obtain ⟨hmany, hfew⟩ := length_exact h hk
  have hten : Nat.pow 5 k * Nat.pow 2 k = Nat.pow 10 k := (Nat.mul_pow 5 2 k).symm
  have hzero : Double.multiple place * Nat.pow 5 k ≠ 0 :=
    Nat.ne_of_gt (Nat.mul_pos (multiple_pos h) (Nat.pow_pos (by decide)))
  have hplace : Double.nearestPlace (Double.multiple place * Nat.pow 5 k * Nat.pow 10 (-(k : Int)).toNat)
      (Nat.pow 10 (- -(k : Int)).toNat) = place := by
    refine Double.nearestPlace_of_exact (Double.ten_pow_pos _) ?_
    have hnumerator : (-(k : Int)).toNat = 0 := by omega
    have hdenominator : (- -(k : Int)).toNat = k := by omega
    have hone : Nat.pow 10 0 = 1 := rfl
    rw [← hk, hnumerator, hdenominator, ← hten, hone, Nat.mul_one, Nat.mul_assoc]
  rw [hexact]
  unfold reads Double.ofDecimal
  dsimp only
  rw [if_neg hzero, if_neg (by omega), if_neg (by omega), Double.nearest, hplace, Double.ofPlace,
    dif_pos place.isLt]
  exact decide_eq_true rfl

/-! ## The shortest decimal -/

theorem reads_getD {found : Option Decimal} {value : Decimal} (hfound : ∀ d, found = some d → reads place d = true)
    (hvalue : reads place value = true) : reads place (found.getD value) = true := by
  cases found with
  | some d => exact hfound d rfl
  | none => exact hvalue

theorem reads_shortest (h : place.val ≠ 0) : reads place (shortest place) = true := by
  unfold shortest
  extract_lets value length found d
  have hd : reads place d = true := by
    refine reads_getD (fun hit hhit => ?_) (reads_exact h)
    obtain ⟨_, _, honGrid⟩ := List.exists_of_findSome?_eq_some hhit
    exact reads_of_onGrid? honGrid
  rw [reads, ofDecimal_withoutZeros]
  exact hd

/-- The shortest decimal of a magnitude but zero is read as that magnitude, with either sign. -/
theorem ofDecimal_shortest (h : place.val ≠ 0) (negative : Bool) :
    Double.ofDecimal negative (shortest place).coefficient (shortest place).exponent = .finite negative place :=
  Double.ofDecimal_sign (of_decide_eq_true (reads_shortest h)) negative

theorem coefficient_shortest (h : place.val ≠ 0) : (shortest place).coefficient ≠ 0 := by
  intro hzero
  have hread := ofDecimal_shortest h false
  rw [hzero, Double.ofDecimal] at hread
  cases hread
  exact h rfl

end Decimal

end MessageBus
