import MessageBus.Text.Utf8

/-!
# UTF-16, UTF-32, and octets whose encoding is not told

Both encodings have units of a fixed width. Halves of UTF-16 pairs are let through, joined in UTF-16
where two of them make a pair.
-/

namespace MessageBus

namespace Text

/-- The text of UTF-16 units: a unit of the first half of a pair and one of the second half that follows
it make one code point. -/
def ofUnits : List Nat → Text
  | [] => []
  | [m] => [CodePoint.ofNat m]
  | m :: n :: rest =>
    if 0xD800 ≤ m ∧ m < 0xDC00 ∧ 0xDC00 ≤ n ∧ n < 0xE000 then
      CodePoint.ofNat (0x10000 + (m - 0xD800) * 0x400 + (n - 0xDC00)) :: ofUnits rest
    else CodePoint.ofNat m :: ofUnits (n :: rest)

end Text

namespace Utf16

/-- The units that octets spell, the first of which stands at `position`. -/
def units (order : ByteOrder) : (position : Nat) → List UInt8 → Except Undecodable (List Nat)
  | _, [] => .ok []
  | p, [a] => .error ⟨.utf16 order, .truncated, p, 1, a⟩
  | p, a :: b :: rest => do
    let ns ← units order (p + 2) rest
    .ok (order.number [a, b] :: ns)

def decode (order : ByteOrder) (position : Nat) (octets : List UInt8) : Except Undecodable Text :=
  (units order position octets).map Text.ofUnits

end Utf16

namespace Utf32

/-- The text of the octets, the first of which stands at `position`. -/
def decode (order : ByteOrder) : (position : Nat) → List UInt8 → Except Undecodable Text
  | p, a :: b :: c :: d :: rest =>
    let n := order.number [a, b, c, d]
    if n < 0x110000 then do
      let t ← decode order (p + 4) rest
      .ok (CodePoint.ofNat n :: t)
    else .error ⟨.utf32 order, .range, p, 4, a⟩
  | p, a :: rest => .error ⟨.utf32 order, .truncated, p, rest.length + 1, a⟩
  | _, [] => .ok []

end Utf32

def Text.ofOctets (octets : List UInt8) : Except Undecodable Text :=
  let (encoding, mark) := Encoding.ofOctets octets
  let octets := octets.drop mark
  match encoding with
  | .utf8 => Utf8.decode true 0 octets
  | .utf16 order => Utf16.decode order mark octets
  | .utf32 order => Utf32.decode order mark octets

end MessageBus
