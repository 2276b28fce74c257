import MessageBus.Text

/-!
# Encodings

How octets spell a text, and what is wrong with octets that spell none.
-/

namespace MessageBus

/-- Which octet of a number comes first: the lowest or the highest one. -/
inductive ByteOrder where
  | little
  | big
deriving DecidableEq

def ByteOrder.number (order : ByteOrder) (octets : List UInt8) : Nat :=
  let ordered := match order with
    | .little => octets.reverse
    | .big => octets
  ordered.foldl (fun n b => n * 256 + b.toNat) 0

/-- How octets spell a text. -/
inductive Encoding where
  | utf8
  | utf16 (order : ByteOrder)
  | utf32 (order : ByteOrder)
deriving DecidableEq

namespace Encoding

def name : Encoding → Text
  | .utf8 => "utf-8"
  | .utf16 .little => "utf-16-le"
  | .utf16 .big => "utf-16-be"
  | .utf32 .little => "utf-32-le"
  | .utf32 .big => "utf-32-be"

/-- The encoding of octets and the length of the mark that they start with: the mark tells, and without
one the place of the zeros in the first octets, as far as they spell ASCII characters. -/
def ofOctets : List UInt8 → Encoding × Nat
  | 0x00 :: 0x00 :: 0xFE :: 0xFF :: _ => (.utf32 .big, 4)
  | 0xFF :: 0xFE :: 0x00 :: 0x00 :: _ => (.utf32 .little, 4)
  | 0xFE :: 0xFF :: _ => (.utf16 .big, 2)
  | 0xFF :: 0xFE :: _ => (.utf16 .little, 2)
  | 0xEF :: 0xBB :: 0xBF :: _ => (.utf8, 3)
  | a :: b :: c :: d :: _ =>
    if a = 0 then (if b = 0 then .utf32 .big else .utf16 .big, 0)
    else if b = 0 then (if c = 0 ∧ d = 0 then .utf32 .little else .utf16 .little, 0)
    else (.utf8, 0)
  | [a, b] => (if a = 0 then .utf16 .big else if b = 0 then .utf16 .little else .utf8, 0)
  | _ => (.utf8, 0)

end Encoding

/-- What is wrong with a sequence of octets. -/
inductive Flaw where
  | start
  | continuation
  | ended
  | truncated
  | range
deriving DecidableEq

def Flaw.text : Flaw → Text
  | .start => "invalid start byte"
  | .continuation => "invalid continuation byte"
  | .ended => "unexpected end of data"
  | .truncated => "truncated data"
  | .range => "code point not in range(0x110000)"

/-- The `count` octets from `position` on, of which `first` is the first one, spell nothing. -/
structure Undecodable where
  encoding : Encoding
  flaw : Flaw
  position : Nat
  count : Nat
  first : UInt8
deriving DecidableEq

def Undecodable.message (u : Undecodable) : Text :=
  "'" ++ u.encoding.name ++ "' codec can't decode " ++
    (if u.count = 1 then
      "byte 0x" ++ Text.hex 2 u.first.toNat ++ " in position " ++ Text.ofNat u.position
    else
      "bytes in position " ++ Text.ofNat u.position ++ "-" ++ Text.ofNat (u.position + u.count - 1)) ++
    ": " ++ u.flaw.text

/-- The halves of UTF-16 pairs in a row that keep a text from being written as UTF-8: the first one, its
position, and how many follow it. -/
structure Unencodable where
  half : CodePoint
  position : Nat
  more : Nat
deriving DecidableEq

def Text.unencodable? (t : Text) : Option Unencodable :=
  match t.dropWhile CodePoint.isChar with
  | [] => none
  | half :: rest =>
    some ⟨half, t.length - rest.length - 1, (rest.takeWhile (!·.isChar)).length⟩

def Unencodable.message (u : Unencodable) : Text :=
  "'utf-8' codec can't encode " ++
    (if u.more = 0 then
      "character '\\u" ++ Text.hex 4 u.half.val ++ "' in position " ++ Text.ofNat u.position
    else
      "characters in position " ++ Text.ofNat u.position ++ "-" ++ Text.ofNat (u.position + u.more)) ++
    ": surrogates not allowed"

theorem Text.unencodable?_eq_none_iff (t : Text) :
    t.unencodable? = none ↔ ∀ c ∈ t, c.isChar = true := by
  have all : t.dropWhile CodePoint.isChar = [] ↔ ∀ c ∈ t, c.isChar = true := by
    induction t with
    | nil => simp
    | cons c t ih => by_cases h : c.isChar <;> simp [List.dropWhile, h, ih]
  rw [← all, Text.unencodable?]
  cases t.dropWhile CodePoint.isChar <;> simp

end MessageBus
