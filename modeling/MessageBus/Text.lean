/-!
# Text

A text is a list of code points. A code point is a character, or one half of a UTF-16 pair that
stands alone: a JSON document can spell such a half and a caller can hold one, so texts keep it,
and only the writer of a wire form refuses it.
-/

namespace MessageBus

/-- A character, or half of a UTF-16 pair standing alone (`0xD800 + half`). -/
inductive CodePoint where
  | char (c : Char)
  | surrogate (half : Fin 0x800)
deriving DecidableEq, Repr, Inhabited

namespace CodePoint

instance : Coe Char CodePoint := ⟨.char⟩

def val : CodePoint → Nat
  | .char c => c.toNat
  | .surrogate half => 0xD800 + half

def ofNat (n : Nat) : CodePoint :=
  if 0xD800 ≤ n ∧ n < 0xE000 then .surrogate (Fin.ofNat 0x800 (n - 0xD800)) else .char (Char.ofNat n)

/-- Whether the code point is a character, and so can be written as UTF-8. -/
def isChar : CodePoint → Bool
  | .char _ => true
  | .surrogate _ => false

def digit? : CodePoint → Option Nat
  | .char c => if c.isDigit then some (c.toNat - 48) else none
  | .surrogate _ => none

def hexDigit? : CodePoint → Option Nat
  | .char c =>
    if c.isDigit then some (c.toNat - 48)
    else if 'a' ≤ c ∧ c ≤ 'f' then some (c.toNat - 87)
    else if 'A' ≤ c ∧ c ≤ 'F' then some (c.toNat - 55)
    else none
  | .surrogate _ => none

def asciiLower : CodePoint → CodePoint
  | .char c => .char c.toLower
  | .surrogate half => .surrogate half

/-- What a reader of octets makes of the code point: half of a UTF-16 pair leaves three replacement
characters, one for each of the octets that would spell it. -/
def replaced : CodePoint → List CodePoint
  | .char c => [.char c]
  | .surrogate _ => List.replicate 3 (.char (Char.ofNat 0xFFFD))

end CodePoint

abbrev Text := List CodePoint

instance : LawfulBEq Text := inferInstanceAs (LawfulBEq (List CodePoint))

namespace Text

def ofString (s : String) : Text := s.toList.map .char

instance : Coe String Text := ⟨ofString⟩

theorem ofString_inj {a b : String} : ofString a = ofString b ↔ a = b := by
  refine ⟨fun h => String.toList_inj.mp ?_, fun h => h ▸ rfl⟩
  have key : ∀ {xs ys : List Char}, xs.map CodePoint.char = ys.map .char → xs = ys := by
    intro xs
    induction xs with
    | nil => intro ys h; cases ys <;> simp_all
    | cons x xs ih =>
      intro ys h
      cases ys with
      | nil => simp at h
      | cons y ys =>
        obtain ⟨rfl, tails⟩ : x = y ∧ xs.map CodePoint.char = ys.map .char := by simpa using h
        rw [ih tails]
  exact key h

def ofNat (n : Nat) : Text := (Nat.toDigits 10 n).map .char

/-- The text in decimal digits of an integer, with a minus sign when it is negative. -/
def ofInt (n : Int) : Text :=
  if n < 0 then .char '-' :: ofNat n.natAbs else ofNat n.natAbs

def numberOf (digits : List Nat) : Nat := digits.foldl (fun n d => n * 10 + d) 0

def spanDigits : Text → List Nat × Text
  | [] => ([], [])
  | c :: rest =>
    match c.digit? with
    | some d => let (ds, left) := spanDigits rest; (d :: ds, left)
    | none => ([], c :: rest)

def hexDigit (n : Nat) : CodePoint := .char (Nat.digitChar (n % 16))

def hex : (width : Nat) → Nat → Text
  | 0, _ => []
  | width + 1, n => hex width (n / 16) ++ [hexDigit n]

def joined (separator : Text) : List Text → Text
  | [] => []
  | [t] => t
  | t :: u :: rest => t ++ separator ++ joined separator (u :: rest)

def trimmed (p : CodePoint → Bool) (t : Text) : Text :=
  ((t.dropWhile p).reverse.dropWhile p).reverse

def trimmedEnd (p : CodePoint → Bool) (t : Text) : Text := (t.reverse.dropWhile p).reverse

/-- What follows the last occurrence of `c`, or the whole text when there is none. -/
def afterLast (c : CodePoint) (t : Text) : Text := (t.reverse.takeWhile (· ≠ c)).reverse

def replaced (t : Text) : Text := t.flatMap CodePoint.replaced

/-- A text with every half of a UTF-16 pair spelled by its number behind a backslash. -/
def spelled (t : Text) : Text :=
  t.flatMap fun
    | .char c => [.char c]
    | .surrogate half => .char '\\' :: .char 'u' :: hex 4 (CodePoint.surrogate half).val

end Text

end MessageBus
