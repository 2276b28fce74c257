import MessageBus.Proofs.WithinLimits

/-!
# Why a text is refused

A reader stops for one of three reasons, and each shows in the text (`Refusal`). Where it finds a problem, no reader
finds a value, whatever its limits. Where it finds too many digits, as many stand side by side. Where it finds
containers nested too deep, there are more opening brackets than levels.

The last two are proved reader by reader (`Explained`): a reader leaves the end of its text, so that what the next one
finds there was in the text before.
-/

namespace MessageBus.Json

/-- How many brackets that open a container stand in a text. -/
def openings (t : Text) : Nat := List.countP (fun c : CodePoint => decide (c = '[' ∨ c = '\x7b')) t

theorem openings_suffix {t u : Text} (h : t <:+ u) : openings t ≤ openings u := h.sublist.countP_le

theorem HasDigits.mono {n : Nat} {t u : Text} (h : HasDigits n t) (htu : t <:+ u) : HasDigits n u := by
  obtain ⟨cs, hlength, hcs, ht⟩ := h
  exact ⟨cs, hlength, hcs, ht.trans htu.isInfix⟩

/-- What a reader does at a text is borne out by it: what is left is its end, and if the limits stop the reader then
so many digits, or at least so many opening brackets, stand in it. -/
structure Explained {α : Type} (limits : Limits) (bound : Nat) (t : Text) (x : Except Stop (α × Text)) : Prop where
  rest : ∀ a left, x = .ok (a, left) → left <:+ t
  digits : ∀ n, x = .error (.tooManyDigits n) → limits.digits < n ∧ HasDigits n t
  levels : x = .error .tooDeep → bound ≤ openings t

section explained

variable {α β : Type} {limits : Limits} {bound : Nat} {t u left : Text} {x : Except Stop (α × Text)}

theorem explained_ok (a : α) (h : left <:+ t) : Explained limits bound t (.ok (a, left)) :=
  ⟨fun _ _ heq => by cases heq; exact h, nofun, nofun⟩

theorem explained_malformed (problem : Problem) (n : Nat) :
    Explained limits bound t (.error (.malformed problem n) : Except Stop (α × Text)) :=
  ⟨nofun, nofun, nofun⟩

theorem Explained.mono (h : Explained limits bound t x) (htu : t <:+ u) : Explained limits bound u x where
  rest a left hx := (h.rest a left hx).trans htu
  digits n hx := (h.digits n hx).imp_right fun hdigits => hdigits.mono htu
  levels hx := Nat.le_trans (h.levels hx) (openings_suffix htu)

theorem Explained.bind {f : α × Text → Except Stop (β × Text)} (h : Explained limits bound t x)
    (hf : ∀ a left, Explained limits bound left (f (a, left))) : Explained limits bound t (x >>= f) := by
  cases x with
  | error stop =>
    refine ⟨nofun, fun n hx => h.digits n ?_, fun hx => h.levels ?_⟩
    · cases hx
      rfl
    · cases hx
      rfl
  | ok a =>
    obtain ⟨a, left⟩ := a
    exact (hf a left).mono (h.rest a left rfl)

/-- What becomes of a value leaves the rest of the text alone. -/
theorem Explained.then_ok {f : α × Text → Except Stop (β × Text)} (h : Explained limits bound t x)
    (hf : ∀ a left, ∃ b, f (a, left) = .ok (b, left)) : Explained limits bound t (x >>= f) :=
  h.bind fun a left => by
    obtain ⟨b, hb⟩ := hf a left
    exact hb ▸ explained_ok b (List.suffix_refl left)

/-- What stands behind an opening bracket has one bracket less. -/
theorem Explained.opened (h : Explained limits bound t x) {c : CodePoint} (hc : c = '[' ∨ c = '\x7b') :
    Explained limits (bound + 1) (c :: t) x where
  rest a left hx := (h.rest a left hx).trans (List.suffix_cons c t)
  digits n hx := (h.digits n hx).imp_right fun hdigits => hdigits.mono (List.suffix_cons c t)
  levels hx := by
    have hcount : openings (c :: t) = openings t + 1 := List.countP_cons_of_pos (decide_eq_true hc)
    exact hcount ▸ Nat.succ_le_succ (h.levels hx)

end explained

section readers

variable {limits : Limits} {bound : Nat} {inside : Reader Value}

theorem skipBlanks_suffix (t : Text) : skipBlanks t <:+ t := List.dropWhile_suffix _

theorem suffix_of_skipBlanks {t left : Text} {c : CodePoint} (h : skipBlanks t = c :: left) : left <:+ t :=
  (List.suffix_cons c left).trans (h ▸ skipBlanks_suffix t)

theorem eq_of_after? {word t left : Text} (h : after? word t = some left) : t = word ++ left := by
  fun_induction after? word t with
  | case1 => exact Option.some.inj h
  | case2 => cases h
  | case3 c word t ih => rw [ih h, List.cons_append]
  | case4 => cases h

theorem explained_readPieces (limits : Limits) (bound opening : Nat) (t : Text) :
    Explained limits bound t (readPieces opening t) := by
  fun_induction readPieces opening t
  case case2 => exact explained_ok _ (List.suffix_cons _ _)
  case case4 ih => exact ((ih.mono (List.suffix_append [_, _, _, _, _, _] _)).then_ok fun _ _ => ⟨_, rfl⟩)
  case case7 ih => exact ((ih.mono (List.suffix_append [_, _] _)).then_ok fun _ _ => ⟨_, rfl⟩)
  case case10 ih => exact ((ih.mono (List.suffix_cons _ _)).then_ok fun _ _ => ⟨_, rfl⟩)
  all_goals exact explained_malformed _ _

theorem explained_readText (limits : Limits) (bound opening : Nat) (t : Text) :
    Explained limits bound t (readText opening t) :=
  (explained_readPieces limits bound opening t).then_ok fun _ _ => ⟨_, rfl⟩

theorem explained_readNumber (limits : Limits) (bound : Nat) (t : Text) :
    Explained limits bound t (readNumber limits t) := by
  cases numberAt t with
  | nothing h =>
    rw [h limits]
    exact explained_malformed _ _
  | int n digits left _ _ _ hspelled hleft h =>
    rw [h limits]
    split
    · next hlimit =>
      refine ⟨nofun, fun k hk => ?_, nofun⟩
      cases hk
      exact ⟨hlimit, hspelled⟩
    · exact explained_ok _ hleft
  | float y left hleft h =>
    rw [h limits]
    exact explained_ok _ hleft

theorem explained_readScalar (limits : Limits) (bound : Nat) (t : Text) :
    Explained limits bound t (readScalar limits t) := by
  unfold readScalar
  split
  case h_7 => exact explained_readNumber limits bound t
  all_goals exact explained_ok _ ⟨_, (eq_of_after? (by assumption)).symm⟩

theorem explained_readItems (h : ∀ t, Explained limits bound t (inside t)) (fuel : Nat) (t : Text) :
    Explained limits bound t (readItems inside fuel t) := by
  induction fuel generalizing t with
  | zero => exact explained_malformed _ _
  | succ fuel ih =>
    rw [readItems]
    refine (h t).bind fun v left => ?_
    dsimp only
    split
    · next hleft => exact explained_ok _ (suffix_of_skipBlanks hleft)
    · next hleft =>
      have hrest := (skipBlanks_suffix _).trans (suffix_of_skipBlanks hleft)
      exact ((ih _).mono hrest).then_ok fun _ _ => ⟨_, rfl⟩
    · exact explained_malformed _ _

theorem explained_readEntries (h : ∀ t, Explained limits bound t (inside t)) (fuel : Nat) (t : Text) :
    Explained limits bound t (readEntries inside fuel t) := by
  induction fuel generalizing t with
  | zero => exact explained_malformed _ _
  | succ fuel ih =>
    unfold readEntries
    dsimp only
    split
    · refine Explained.mono (Explained.bind (explained_readText ..) fun key left => ?_) (List.suffix_cons _ _)
      dsimp only
      split
      · next hcolon =>
        have hvalue := (skipBlanks_suffix _).trans (suffix_of_skipBlanks hcolon)
        refine ((h _).bind fun v left => ?_).mono hvalue
        dsimp only
        split
        · next hleft => exact explained_ok _ (suffix_of_skipBlanks hleft)
        · next hleft =>
          have hrest := (skipBlanks_suffix _).trans (suffix_of_skipBlanks hleft)
          exact ((ih _).mono hrest).then_ok fun _ _ => ⟨_, rfl⟩
        · exact explained_malformed _ _
      · exact explained_malformed _ _
    · exact explained_malformed _ _

/-- A container takes one level. -/
theorem explained_readLayer (h : ∀ t, Explained limits bound t (inside t)) (t : Text) :
    Explained limits (bound + 1) t (readLayer limits inside t) := by
  unfold readLayer
  split
  · refine Explained.then_ok (Explained.mono (explained_readText ..) (List.suffix_cons _ _)) fun _ _ => ?_
    exact ⟨_, rfl⟩
  · next rest =>
    split
    · next hleft => exact explained_ok _ ((suffix_of_skipBlanks hleft).trans (List.suffix_cons _ _))
    · have hrest := (explained_readItems h ((skipBlanks rest).length + 1) _).mono (skipBlanks_suffix rest)
      have hitems := hrest.opened (.inl rfl)
      exact hitems.then_ok fun _ _ => ⟨_, rfl⟩
  · next rest =>
    split
    · next hleft => exact explained_ok _ ((suffix_of_skipBlanks hleft).trans (List.suffix_cons _ _))
    · have hrest := (explained_readEntries h ((skipBlanks rest).length + 1) _).mono (skipBlanks_suffix rest)
      have hentries := hrest.opened (.inr rfl)
      exact hentries.then_ok fun _ _ => ⟨_, rfl⟩
  · exact explained_readScalar limits (bound + 1) t

theorem explained_readValue (limits : Limits) (levels : Nat) (t : Text) :
    Explained limits (levels + 1) t (readValue limits levels t) := by
  induction levels generalizing t with
  | zero =>
    have hinside (u : Text) : Explained limits 0 u (.error .tooDeep : Except Stop (Value × Text)) :=
      ⟨nofun, nofun, fun _ => Nat.zero_le _⟩
    exact explained_readLayer hinside t
  | succ levels ih => exact explained_readLayer ih t

end readers

/-- What a text lacks that is refused. -/
inductive Refusal (limits : Limits) (t : Text) : ReadError → Prop where
  | malformed {problem : Problem} {line column position : Nat} (h : ∀ limits v, read limits t ≠ .ok v) :
      Refusal limits t (.malformed problem line column position)
  | tooManyDigits {count : Nat} (hcount : limits.digits < count) (h : HasDigits count t) :
      Refusal limits t (.tooManyDigits limits.digits count)
  | tooDeep (h : limits.depth < openings t) : Refusal limits t .tooDeep

/-- What the limits of a reader stop, they stop at the head of the text. -/
theorem readValue_of_readAll {limits : Limits} {t : Text} {stop : Stop} (h : readAll limits t = .error stop)
    (hstop : ∀ problem left, stop ≠ .malformed problem left) :
    readValue limits limits.depth (skipBlanks t) = .error stop := by
  rw [readAll] at h
  cases hvalue : readValue limits limits.depth (skipBlanks t) with
  | error e =>
    rw [hvalue] at h
    cases h
    rfl
  | ok x =>
    rw [hvalue] at h
    dsimp only [bind, Except.bind] at h
    split at h
    · cases h
    · cases h
      exact absurd rfl (hstop _ _)

/-- A problem is one whatever the limits are. -/
theorem not_read_of_malformed {limits : Limits} {t : Text} {problem : Problem} {left : Nat}
    (h : readAll limits t = .error (.malformed problem left)) (limits' : Limits) (v : Value) :
    read limits' t ≠ .ok v := by
  intro hread
  let both : Limits := ⟨max limits.depth limits'.depth, max limits.digits limits'.digits⟩
  have hboth : readAll both t = .ok v :=
    mapError_eq_ok.mp (read_of_limits (Nat.le_max_right ..) (Nat.le_max_right ..) hread)
  have halike : Alike (readAll limits t) (readAll both t) :=
    readAll_alike (Nat.le_max_left ..) (Nat.le_max_left ..) t
  rw [h, hboth] at halike
  rcases halike with (hstop | ⟨n, hstop⟩) | hsame
  · cases hstop
  · cases hstop
  · cases hsame

/-- Every refusal has its reason in the text. -/
theorem refusal_of_read {limits : Limits} {t : Text} {e : ReadError} (h : read limits t = .error e) :
    Refusal limits t e := by
  rw [read] at h
  cases hall : readAll limits t with
  | ok v =>
    rw [hall] at h
    cases h
  | error stop =>
    rw [hall] at h
    have hstop : (Stop.inText limits t stop) = e := Except.error.inj h
    have hexplained := (explained_readValue limits limits.depth (skipBlanks t)).mono (skipBlanks_suffix t)
    subst hstop
    cases stop with
    | malformed problem left => exact .malformed (not_read_of_malformed hall)
    | tooManyDigits n =>
      obtain ⟨hn, hdigits⟩ := hexplained.digits n (readValue_of_readAll hall nofun)
      exact .tooManyDigits hn hdigits
    | tooDeep => exact .tooDeep (hexplained.levels (readValue_of_readAll hall nofun))

end MessageBus.Json
