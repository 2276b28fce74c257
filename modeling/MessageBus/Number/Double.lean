/-!
# Binary64 numbers

A finite number is its sign and the place of its magnitude in the ascending list of all finite
magnitudes, so that place 0 is zero and the next place is the next larger magnitude. From place
`2 ^ 53` on, the distance between neighbours doubles every `2 ^ 52` places.

`nearest` rounds a quotient of natural numbers to the nearest magnitude, a tie to the even place.
-/

namespace MessageBus

/-- How many finite magnitudes there are. -/
abbrev finitePlaces : Nat := 2047 * Nat.pow 2 52

/-- A binary64 number. -/
inductive Double where
  | nan
  | infinite (negative : Bool)
  | finite (negative : Bool) (place : Fin finitePlaces)
deriving DecidableEq

namespace Double

/-- How often the distance between neighbours has doubled at a place. -/
def doublings (place : Nat) : Nat := place / Nat.pow 2 52 - 1

/-- The magnitude at a place as a multiple of the least one, `2 ^ -1074`. -/
def multiple (place : Nat) : Nat := (place - doublings place * Nat.pow 2 52) * Nat.pow 2 (doublings place)

/-- The quotient rounded to the nearest natural number, a tie to the even one. -/
def roundedQuotient (n d : Nat) : Nat :=
  let q := n / d
  let r := n % d
  if 2 * r < d then q else if d < 2 * r then q + 1 else if q % 2 = 0 then q else q + 1

/-- The place of the magnitude nearest to `n / d` in a list without end. -/
def nearestPlace (n d : Nat) : Nat :=
  let doubled := Nat.log2 (n * Nat.pow 2 1074 / d) - 52
  doubled * Nat.pow 2 52 + roundedQuotient (n * Nat.pow 2 1074) (d * Nat.pow 2 doubled)

/-- The number at a place, infinite behind the last one. -/
def ofPlace (negative : Bool) (place : Nat) : Double :=
  if h : place < finitePlaces then .finite negative ⟨place, h⟩ else .infinite negative

def nearest (negative : Bool) (n d : Nat) : Double := ofPlace negative (nearestPlace n d)

/-- The number nearest to `digits * 10 ^ exponent`. Magnitudes that are zero or infinite by their
count of digits alone are not computed. -/
def ofDecimal (negative : Bool) (digits : Nat) (exponent : Int) : Double :=
  let length : Int := (Nat.toDigits 10 digits).length
  if digits = 0 then .finite negative 0
  else if 310 < length + exponent then .infinite negative
  else if length + exponent < -325 then .finite negative 0
  else nearest negative (digits * Nat.pow 10 exponent.toNat) (Nat.pow 10 (-exponent).toNat)

/-- The rational number that a finite number denotes. -/
def toRat? : Double → Option Rat
  | .finite negative place =>
    let magnitude : Rat := mkRat (multiple place) (Nat.pow 2 1074)
    some (if negative then -magnitude else magnitude)
  | _ => none

/-- The integer that a number denotes, if it denotes one. -/
def toInt? : Double → Option Int
  | .finite negative place =>
    if multiple place % Nat.pow 2 1074 = 0 then
      let n := Int.ofNat (multiple place / Nat.pow 2 1074)
      some (if negative then -n else n)
    else none
  | _ => none

def isFinite : Double → Bool
  | .finite _ _ => true
  | _ => false

end Double

end MessageBus
