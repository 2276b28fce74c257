import MessageBus.Proofs.JsonValues
import MessageBus.Proofs.Reading

/-!
# What is read is within the limits

Whatever the text, a value that is read nests no deeper than the reader allows, and none of its integers has
more digits (`read_within`). It is none of the values that only a caller can make (`read_spelt`).
-/

namespace MessageBus.Json

variable {limits : Limits} {r inside : Reader Value} {p : Value → Prop}

/-- Whatever the reader reads is of the kind. -/
def Yields (p : Value → Prop) (r : Reader Value) : Prop := ∀ ⦃t : Text⦄ ⦃x : Value × Text⦄, r t = .ok x → p x.1

theorem readItems_forall (h : Yields p inside) {fuel : Nat} {t rest : Text} {vs : List Value}
    (hread : readItems inside fuel t = .ok (vs, rest)) : ∀ v ∈ vs, p v := by
  induction fuel generalizing t vs rest with
  | zero => cases hread
  | succ fuel ih =>
    rw [readItems] at hread
    obtain ⟨⟨v, left⟩, hv, hread⟩ := bind_eq_ok.mp hread
    dsimp only at hread
    split at hread
    · cases hread
      rw [List.forall_mem_singleton]
      exact h hv
    · obtain ⟨⟨vs, left⟩, hvs, hread⟩ := bind_eq_ok.mp hread
      cases hread
      rw [List.forall_mem_cons]
      exact ⟨h hv, ih hvs⟩
    · cases hread

theorem readEntries_forall (h : Yields p inside) {fuel : Nat} {t rest : Text} {es : List (Text × Value)}
    (hread : readEntries inside fuel t = .ok (es, rest)) : ∀ e ∈ es, p e.2 := by
  induction fuel generalizing t es rest with
  | zero => cases hread
  | succ fuel ih =>
    unfold readEntries at hread
    dsimp only at hread
    split at hread
    · obtain ⟨⟨key, left⟩, _, hread⟩ := bind_eq_ok.mp hread
      dsimp only at hread
      split at hread
      · obtain ⟨⟨v, left⟩, hv, hread⟩ := bind_eq_ok.mp hread
        dsimp only at hread
        split at hread
        · cases hread
          rw [List.forall_mem_singleton]
          exact h hv
        · obtain ⟨⟨es, left⟩, hes, hread⟩ := bind_eq_ok.mp hread
          cases hread
          rw [List.forall_mem_cons]
          exact ⟨h hv, ih hes⟩
        · cases hread
      · cases hread
    · cases hread

/-! ## Numbers -/

theorem numberOf_lt {digits : List Nat} (h : ∀ d ∈ digits, d < 10) :
    Text.numberOf digits < Nat.pow 10 digits.length := by
  have hfold (n : Nat) : digits.foldl (fun n d => n * 10 + d) n < (n + 1) * Nat.pow 10 digits.length := by
    induction digits generalizing n with
    | nil => simp
    | cons d ds ih =>
      rw [List.forall_mem_cons] at h
      have hstep : n * 10 + d + 1 ≤ (n + 1) * 10 := by omega
      calc List.foldl (fun n d => n * 10 + d) n (d :: ds)
          < (n * 10 + d + 1) * Nat.pow 10 ds.length := ih h.2 _
        _ ≤ (n + 1) * 10 * Nat.pow 10 ds.length := Nat.mul_le_mul_right _ hstep
        _ = (n + 1) * Nat.pow 10 (d :: ds).length := by
          rw [List.length_cons, Nat.mul_assoc, Nat.mul_comm 10]
          rfl
  simpa [Text.numberOf] using hfold 0

/-- A value that nests no deeper than so many levels, with integers of no more than so many digits. -/
structure Within (limits : Limits) (levels : Nat) (v : Value) : Prop where
  depth : v.depth ≤ levels
  digits : v.IntsWithin limits.digits

theorem within_scalar {levels : Nat} {v : Value} (hdepth : v.depth = 0) (hints : ∀ n, .int n ∉ v.scalars) :
    Within limits levels v :=
  ⟨hdepth ▸ Nat.zero_le levels, fun n hn => absurd hn (hints n)⟩

theorem readNumber_within (levels : Nat) : Yields (Within limits levels) (readNumber limits) := by
  intro t x hread
  cases numberAt t with
  | nothing h =>
    rw [h limits] at hread
    cases hread
  | int n digits left hn hne hdigits _ _ h =>
    rw [h limits] at hread
    split at hread
    · cases hread
    · cases hread
      refine ⟨Nat.zero_le levels, fun m hm => ?_⟩
      obtain rfl : m = n := by simpa [Value.scalars] using hm
      have hlength := Double.length_toDigits_le (List.length_pos_iff.mpr hne) (numberOf_lt hdigits)
      rw [hn]
      omega
  | float y left _ h =>
    rw [h limits] at hread
    cases hread
    exact within_scalar rfl (by simp [Value.scalars])

theorem readScalar_within (levels : Nat) : Yields (Within limits levels) (readScalar limits) := by
  intro t x hread
  unfold readScalar at hread
  split at hread
  case h_7 => exact readNumber_within levels hread
  all_goals
    cases hread
    exact within_scalar rfl (by simp [Value.scalars])

/-! ## Containers -/

theorem readLayer_within {levels : Nat}
    (h : Yields (fun v => v.depth < levels ∧ v.IntsWithin limits.digits) inside) :
    Yields (Within limits levels) (readLayer limits inside) := by
  intro t x hread
  unfold readLayer at hread
  split at hread
  · obtain ⟨⟨u, left⟩, _, hread⟩ := bind_eq_ok.mp hread
    cases hread
    exact within_scalar rfl (by simp [Value.scalars])
  · split at hread
    · cases hread
      exact within_scalar rfl (by simp [Value.scalars, Value.scalarsOfItems])
    · obtain ⟨⟨items, left⟩, hitems, hread⟩ := bind_eq_ok.mp hread
      cases hread
      have hall := readItems_forall h hitems
      exact ⟨Value.depth_list_le.mpr fun v hv => (hall v hv).1, Value.intsWithin_list.mpr fun v hv => (hall v hv).2⟩
  · split at hread
    · cases hread
      exact within_scalar rfl (by simp [Value.scalars, Value.scalarsOfEntries])
    · obtain ⟨⟨entries, left⟩, hentries, hread⟩ := bind_eq_ok.mp hread
      cases hread
      obtain ⟨fields, hfields, _, hall⟩ :=
        Value.exists_ofFields (p := fun e => e.2.depth < levels ∧ e.2.IntsWithin limits.digits)
          (readEntries_forall h hentries)
      dsimp only
      rw [hfields]
      exact ⟨Value.depth_ofFields_le.mpr fun e he => (hall e he).1,
        Value.intsWithin_ofFields.mpr fun e he => (hall e he).2⟩
  · exact readScalar_within levels hread

theorem readValue_within (limits : Limits) (levels : Nat) :
    Yields (Within limits levels) (readValue limits levels) := by
  induction levels with
  | zero => exact readLayer_within fun _ _ hread => nomatch hread
  | succ levels ih =>
    exact readLayer_within fun _ _ hread => ⟨Nat.lt_succ_of_le (ih hread).depth, (ih hread).digits⟩

theorem read_forall (h : Yields p (readValue limits limits.depth)) {t : Text} {v : Value}
    (hread : read limits t = .ok v) : p v := by
  obtain ⟨⟨u, left⟩, hu, hleft⟩ := bind_eq_ok.mp (mapError_eq_ok.mp hread)
  have hp : p u := h hu
  dsimp only at hleft
  split at hleft
  · cases hleft
    exact hp
  · cases hleft

theorem read_within {t : Text} {v : Value} (h : read limits t = .ok v) : Within limits limits.depth v :=
  read_forall (readValue_within limits limits.depth) h

/-! ## The outside -/

/-- The values that a text can spell, by what they are on the outside. -/
def IsSpelt : Value → Prop
  | .null | .bool _ | .int _ | .float _ | .text _ | .list _ | .dict _ => True
  | _ => False

theorem readNumber_spelt : Yields IsSpelt (readNumber limits) := by
  intro t x hread
  cases numberAt t with
  | nothing h =>
    rw [h limits] at hread
    cases hread
  | int n digits left _ _ _ _ _ h =>
    rw [h limits] at hread
    split at hread
    · cases hread
    · cases hread
      trivial
  | float y left _ h =>
    rw [h limits] at hread
    cases hread
    trivial

theorem readScalar_spelt : Yields IsSpelt (readScalar limits) := by
  intro t x hread
  unfold readScalar at hread
  split at hread
  case h_7 => exact readNumber_spelt hread
  all_goals
    cases hread
    trivial

theorem readLayer_spelt : Yields IsSpelt (readLayer limits inside) := by
  intro t x hread
  unfold readLayer at hread
  split at hread
  · obtain ⟨_, _, hread⟩ := bind_eq_ok.mp hread
    cases hread
    trivial
  · split at hread
    · cases hread
      trivial
    · obtain ⟨_, _, hread⟩ := bind_eq_ok.mp hread
      cases hread
      trivial
  · split at hread
    · cases hread
      trivial
    · obtain ⟨_, _, hread⟩ := bind_eq_ok.mp hread
      cases hread
      trivial
  · exact readScalar_spelt hread

theorem read_spelt {t : Text} {v : Value} (h : read limits t = .ok v) : IsSpelt v := by
  obtain ⟨inside, hinside⟩ := exists_readLayer limits limits.depth
  exact read_forall (hinside ▸ readLayer_spelt) h

end MessageBus.Json
