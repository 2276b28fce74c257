import MessageBus.Number.Shortest
import MessageBus.Text

/-!
# Written numbers

A binary64 number is written with the shortest digits that read back, either with a point among
zeros or with an exponent of ten. A style says which magnitudes take an exponent and how the
exponent is written.
-/

namespace MessageBus

/-- How binary64 numbers are written. -/
structure FloatStyle where
  /-- The least power of ten of a first digit that is written without an exponent. -/
  least : Int
  /-- The greatest power of ten of a first digit that is written without an exponent. -/
  greatest : Int
  /-- How many digits an exponent has at least. -/
  exponentWidth : Nat

namespace FloatStyle

/-- Listings of values: no exponent from `0.0001` up to below `1e+16`, two digits in an exponent. -/
def listing : FloatStyle := ⟨-4, 15, 2⟩

/-- Wire forms: no exponent from `0.00001` up to below `1e+16`, as few digits in an exponent as it
takes. -/
def wire : FloatStyle := ⟨-5, 15, 1⟩

/-- A decimal with a point and at least one digit on both sides of it. -/
def positional (d : Decimal) : List Char :=
  let point := d.digits.length + d.exponent
  if 0 ≤ d.exponent then d.digits ++ List.replicate d.exponent.toNat '0' ++ ['.', '0']
  else if 0 < point then d.digits.take point.toNat ++ ['.'] ++ d.digits.drop point.toNat
  else ['0', '.'] ++ List.replicate (-point).toNat '0' ++ d.digits

/-- A decimal with one digit before the point and an exponent; a point only before more digits. -/
def scientific (width : Nat) (d : Decimal) : List Char :=
  let fraction := d.digits.drop 1
  let exponent := Nat.toDigits 10 d.leading.natAbs
  d.digits.take 1 ++ (if fraction.isEmpty then [] else '.' :: fraction) ++
    ['e', if d.leading < 0 then '-' else '+'] ++
    List.replicate (width - exponent.length) '0' ++ exponent

def magnitude (style : FloatStyle) (place : Fin finitePlaces) : List Char :=
  if place.val = 0 then ['0', '.', '0']
  else
    let d := Decimal.shortest place
    if style.least ≤ d.leading ∧ d.leading ≤ style.greatest then positional d
    else scientific style.exponentWidth d

def write (style : FloatStyle) : Double → Text
  | .nan => "nan"
  | .infinite negative => if negative then "-inf" else "inf"
  | .finite negative place =>
    ((if negative then ['-'] else []) ++ style.magnitude place).map .char

end FloatStyle

end MessageBus
