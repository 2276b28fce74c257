import MessageBus.Proofs.Checks
import MessageBus.Proofs.Entries
import MessageBus.Proofs.Numerals

/-!
# Readers and their limits

A reader does what any reader with more levels of containers and more digits does, unless its own limits stop it
(`Alike`). The two decoders of the bus differ in nothing else, so the payload decoder reads all that the decoder of
the self-check reads (`payload_of_check`). The first entry of a written object is the first one read back
(`field?_of_read`).
-/

namespace MessageBus

namespace Json

variable {α β : Type} {r s : Reader Value} {limits : Limits}

/-- The limits of a reader stopped it. -/
def Stopped (x : Except Stop α) : Prop := x = .error .tooDeep ∨ ∃ n, x = .error (.tooManyDigits n)

/-- Two results are the same, unless the first reader was stopped by its limits. -/
def Alike (x y : Except Stop α) : Prop := Stopped x ∨ x = y

theorem Alike.bind {x y : Except Stop α} {f g : α → Except Stop β} (h : Alike x y) (hf : ∀ a, Alike (f a) (g a)) :
    Alike (x >>= f) (y >>= g) := by
  rcases h with (rfl | ⟨n, rfl⟩) | rfl
  · exact .inl (.inl rfl)
  · exact .inl (.inr ⟨n, rfl⟩)
  · cases x with
    | error e => exact .inr rfl
    | ok a => exact hf a

/-- Unless its limits stop it, one reader does as another one does. -/
def Refines (r s : Reader α) : Prop := ∀ t, Alike (r t) (s t)

theorem readItems_refines (h : Refines r s) (fuel : Nat) : Refines (readItems r fuel) (readItems s fuel) := by
  induction fuel with
  | zero => exact fun _ => .inr rfl
  | succ fuel ih =>
    intro t
    rw [readItems, readItems]
    refine (h t).bind fun (v, left) => ?_
    dsimp only
    split
    · exact .inr rfl
    · exact (ih _).bind fun _ => .inr rfl
    · exact .inr rfl

theorem readEntries_refines (h : Refines r s) (fuel : Nat) :
    Refines (readEntries r fuel) (readEntries s fuel) := by
  induction fuel with
  | zero => exact fun _ => .inr rfl
  | succ fuel ih =>
    intro t
    unfold readEntries
    dsimp only
    split
    · refine Alike.bind (.inr rfl) fun (key, left) => ?_
      dsimp only
      split
      · refine (h _).bind fun (v, left) => ?_
        dsimp only
        split
        · exact .inr rfl
        · exact (ih _).bind fun _ => .inr rfl
        · exact .inr rfl
      · exact .inr rfl
    · exact .inr rfl

theorem readNumber_refines {limits' : Limits} (h : limits.digits ≤ limits'.digits) :
    Refines (readNumber limits) (readNumber limits') := by
  intro t
  cases numberAt t with
  | nothing hnothing =>
    rw [hnothing limits, hnothing limits']
    exact .inr rfl
  | int n digits left _ _ _ _ _ hint =>
    rw [hint limits, hint limits']
    split
    · exact .inl (.inr ⟨_, rfl⟩)
    · rw [if_neg (by omega)]
      exact .inr rfl
  | float y left _ hfloat =>
    rw [hfloat limits, hfloat limits']
    exact .inr rfl

theorem readScalar_refines {limits' : Limits} (h : limits.digits ≤ limits'.digits) :
    Refines (readScalar limits) (readScalar limits') := by
  intro t
  unfold readScalar
  split
  all_goals first | exact .inr rfl | exact readNumber_refines h t

/-- Only how deep containers nest counts on the inside, and only how many digits integers have outside. -/
theorem readLayer_refines {limits' : Limits} (hdigits : limits.digits ≤ limits'.digits) (h : Refines r s) :
    Refines (readLayer limits r) (readLayer limits' s) := by
  intro t
  unfold readLayer
  split
  · exact .inr rfl
  · split
    · exact .inr rfl
    · exact (readItems_refines h _ _).bind fun _ => .inr rfl
  · split
    · exact .inr rfl
    · exact (readEntries_refines h _ _).bind fun _ => .inr rfl
  · exact readScalar_refines hdigits t

theorem readValue_refines {limits' : Limits} (hdigits : limits.digits ≤ limits'.digits) {m n : Nat}
    (h : m ≤ n) : Refines (readValue limits m) (readValue limits' n) := by
  induction m generalizing n with
  | zero =>
    have hnothing (s : Reader Value) : Refines (fun _ => .error .tooDeep) s := fun _ => .inl (.inl rfl)
    cases n <;> exact readLayer_refines hdigits (hnothing _)
  | succ m ih =>
    cases n with
    | zero => omega
    | succ n => exact readLayer_refines hdigits (ih (by omega))

theorem readAll_alike {limits' : Limits} (hdigits : limits.digits ≤ limits'.digits)
    (hdepth : limits.depth ≤ limits'.depth) (t : Text) : Alike (readAll limits t) (readAll limits' t) :=
  (readValue_refines hdigits hdepth _).bind fun _ => .inr rfl

theorem read_of_limits {limits' : Limits} (hdigits : limits.digits ≤ limits'.digits)
    (hdepth : limits.depth ≤ limits'.depth) {t : Text} {v : Value} (h : read limits t = .ok v) :
    read limits' t = .ok v := by
  have hall : readAll limits t = .ok v := mapError_eq_ok.mp h
  rcases readAll_alike hdigits hdepth t with (hstop | ⟨n, hstop⟩) | hsame
  · rw [hall] at hstop
    cases hstop
  · rw [hall] at hstop
    cases hstop
  · exact mapError_eq_ok.mpr (hsame ▸ hall)

/-- The payload decoder reads all that the decoder of the self-check reads. -/
theorem payload_of_check {t : Text} {v : Value} (h : read .check t = .ok v) : read .payload t = .ok v :=
  read_of_limits (by simp [Limits.check, Limits.payload]) (by simp [Limits.check, Limits.payload]) h

/-! ## What a written object starts with -/

/-- A code point that stands for itself between quotes. -/
def IsPlain (c : CodePoint) : Prop := c ≠ '"' ∧ c ≠ '\\' ∧ ¬ c.val < 0x20

instance (c : CodePoint) : Decidable (IsPlain c) := inferInstanceAs (Decidable (_ ∧ _))

theorem readPieces_quote (opening : Nat) (t : Text) : readPieces opening (.char '"' :: t) = .ok ([], t) := by
  unfold readPieces
  simp

theorem readPieces_plain {c : CodePoint} (h : IsPlain c) (opening : Nat) (t : Text) :
    readPieces opening (c :: t) =
      (readPieces opening t >>= fun (pieces, left) => .ok (.plain c :: pieces, left)) := by
  conv => lhs; unfold readPieces
  rw [if_neg h.1, if_neg h.2.1, if_neg h.2.2]

theorem readText_plain {name : Text} (h : ∀ c ∈ name, IsPlain c) (opening : Nat) (t : Text) :
    readText opening (name ++ .char '"' :: t) = .ok (name, t) := by
  have hpieces : readPieces opening (name ++ .char '"' :: t) = .ok (name.map .plain, t) := by
    induction name with
    | nil => exact readPieces_quote opening t
    | cons c name ih =>
      rw [List.cons_append, readPieces_plain (h c (by simp)), ih fun d hd => h d (by simp [hd])]
      rfl
  have hjoin : Piece.join (name.map .plain) = name := by
    clear hpieces h
    induction name with
    | nil => rfl
    | cons c name ih => rw [List.map_cons, Piece.join, ih]
  rw [readText, hpieces]
  exact congrArg (fun u => Except.ok (u, t)) hjoin

theorem escaped_plain {c : CodePoint} (h : IsPlain c) : escaped c = [c] := by
  obtain ⟨hquote, hbackslash, hcontrol⟩ := h
  have hne (d : Char) (hd : d.toNat < 0x20) : c ≠ d := by
    rintro rfl
    exact hcontrol hd
  rw [escaped, if_neg hquote, if_neg hbackslash, if_neg (hne _ (by decide)), if_neg (hne _ (by decide)),
    if_neg (hne _ (by decide)), if_neg (hne _ (by decide)), if_neg (hne _ (by decide)), if_neg hcontrol]

theorem quote_plain {name : Text} (h : ∀ c ∈ name, IsPlain c) :
    quote name = .char '"' :: (name ++ [.char '"']) := by
  have hflat : name.flatMap escaped = name := by
    induction name with
    | nil => rfl
    | cons c name ih =>
      rw [List.flatMap_cons, escaped_plain (h c (by simp)), ih fun d hd => h d (by simp [hd])]
      rfl
  rw [quote, hflat]

/-- The first name of a dictionary is the first key that is read. -/
theorem readEntries_name {name : Text} (h : ∀ c ∈ name, IsPlain c) {fuel : Nat} {t left : Text}
    {entries : List (Text × Value)}
    (hread : readEntries r fuel (quote name ++ .char ':' :: t) = .ok (entries, left)) :
    ∃ v, (name, v) ∈ entries := by
  have hhead : quote name ++ .char ':' :: t = .char '"' :: (name ++ .char '"' :: .char ':' :: t) := by
    rw [quote_plain h]
    simp
  rw [hhead] at hread
  cases fuel with
  | zero => cases hread
  | succ fuel =>
    rw [readEntries, readText_plain h] at hread
    have hcolon : skipBlanks (.char ':' :: t) = .char ':' :: t := rfl
    simp only [bind, Except.bind, hcolon] at hread
    split at hread
    · cases hread
    · split at hread
      · cases hread
        exact ⟨_, List.mem_singleton.mpr rfl⟩
      · split at hread
        · cases hread
        · cases hread
          exact ⟨_, List.mem_cons_self⟩
      · cases hread

/-- With any number of levels, what is outside is one layer. -/
theorem exists_readLayer (limits : Limits) (levels : Nat) :
    ∃ inside, readValue limits levels = readLayer limits inside := by
  cases levels <;> exact ⟨_, rfl⟩

theorem field?_of_read {name : Text} (h : ∀ c ∈ name, IsPlain c) {t : Text} {v : Value}
    (hread : read limits (.char '\x7b' :: (quote name ++ .char ':' :: t)) = .ok v) :
    (v.field? name).isSome := by
  have hbrace : skipBlanks (.char '\x7b' :: (quote name ++ .char ':' :: t)) =
      .char '\x7b' :: (quote name ++ .char ':' :: t) := rfl
  have hquote : skipBlanks (quote name ++ .char ':' :: t) = quote name ++ .char ':' :: t := rfl
  obtain ⟨⟨u, left⟩, hu, hleft⟩ := bind_eq_ok.mp (mapError_eq_ok.mp hread)
  have hv : u = v := by
    dsimp only at hleft
    split at hleft <;> simp_all [stopAt]
  obtain ⟨inside, hinside⟩ := exists_readLayer limits limits.depth
  rw [hbrace, hinside, readLayer] at hu
  simp only [hquote] at hu
  rw [quote] at hu
  simp only [List.cons_append] at hu
  obtain ⟨⟨entries, left⟩, hentries, hu⟩ := bind_eq_ok.mp hu
  obtain ⟨w, hmem⟩ := readEntries_name h hentries
  cases hu
  exact hv ▸ Value.isSome_field?_of_mem hmem

end Json

end MessageBus
