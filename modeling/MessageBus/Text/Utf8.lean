import MessageBus.Text.Encoding

/-!
# UTF-8

Octets are read as UTF-8 in the shortest form. Halves of UTF-16 pairs are refused, or let through
when the reader is told to. A refusal names the octets of the sequence that were read.
-/

namespace MessageBus.Utf8

/-- Whether the octet continues a sequence. -/
def continues (b : UInt8) : Bool := 0x80 ≤ b && b < 0xC0

/-- Whether the second octet of a sequence fits the first one: no sequence has a shorter form, spells
half of a pair, or lies behind the last code point. -/
def fits (first second : UInt8) : Bool :=
  continues second &&
    (first != 0xE0 || 0xA0 ≤ second) && (first != 0xED || second < 0xA0) &&
    (first != 0xF0 || 0x90 ≤ second) && (first != 0xF4 || second < 0x90)

def low (b : UInt8) : Nat := b.toNat % 64

/-- The text of the octets, the first of which stands at `position`. With `halves`, three octets that
spell half of a UTF-16 pair count as that half. -/
def decode (halves : Bool) : (position : Nat) → List UInt8 → Except Undecodable Text
  | _, [] => .ok []
  | p, a :: rest =>
    if a < 0x80 then do
      let t ← decode halves (p + 1) rest
      .ok (.char (Char.ofNat a.toNat) :: t)
    else if a < 0xC2 || 0xF4 < a then .error ⟨.utf8, .start, p, 1, a⟩
    else if a < 0xE0 then
      match rest with
      | [] => .error ⟨.utf8, .ended, p, 1, a⟩
      | b :: rest =>
        if continues b then do
          let t ← decode halves (p + 2) rest
          .ok (CodePoint.ofNat ((a.toNat - 0xC0) * 64 + low b) :: t)
        else .error ⟨.utf8, .continuation, p, 1, a⟩
    else if a < 0xF0 then
      match rest with
      | [] => .error ⟨.utf8, .ended, p, 1, a⟩
      | [b] => .error (if fits a b then ⟨.utf8, .ended, p, 2, a⟩ else ⟨.utf8, .continuation, p, 1, a⟩)
      | b :: c :: rest =>
        if fits a b || (halves && continues b && a == 0xED && continues c) then
          if continues c then do
            let t ← decode halves (p + 3) rest
            .ok (CodePoint.ofNat ((a.toNat - 0xE0) * 4096 + low b * 64 + low c) :: t)
          else .error ⟨.utf8, .continuation, p, 2, a⟩
        else .error ⟨.utf8, .continuation, p, 1, a⟩
    else
      match rest with
      | [] => .error ⟨.utf8, .ended, p, 1, a⟩
      | [b] => .error (if fits a b then ⟨.utf8, .ended, p, 2, a⟩ else ⟨.utf8, .continuation, p, 1, a⟩)
      | [b, c] =>
        .error (if !fits a b then ⟨.utf8, .continuation, p, 1, a⟩
          else if continues c then ⟨.utf8, .ended, p, 3, a⟩ else ⟨.utf8, .continuation, p, 2, a⟩)
      | b :: c :: d :: rest =>
        if !fits a b then .error ⟨.utf8, .continuation, p, 1, a⟩
        else if !continues c then .error ⟨.utf8, .continuation, p, 2, a⟩
        else if !continues d then .error ⟨.utf8, .continuation, p, 3, a⟩
        else do
          let t ← decode halves (p + 4) rest
          .ok (CodePoint.ofNat
            ((a.toNat - 0xF0) * 262144 + low b * 4096 + low c * 64 + low d) :: t)

end MessageBus.Utf8
