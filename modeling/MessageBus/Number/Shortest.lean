import MessageBus.Number.Double

/-!
# The shortest decimal of a magnitude

`shortest` gives the decimal with the fewest digits that reads back as the same number: it tests
the two neighbours of the exact value on the grid of decimals with one digit, two digits and so on,
and takes the first grid with a hit, of two hits the nearer one and of a tie the even one. Seventeen
digits always suffice; a grid without a hit would leave the exact expansion.
-/

namespace MessageBus

/-- The decimal `coefficient * 10 ^ exponent`. -/
structure Decimal where
  coefficient : Nat
  exponent : Int
deriving DecidableEq

namespace Decimal

def digits (d : Decimal) : List Char := Nat.toDigits 10 d.coefficient

/-- The power of ten that the first digit stands for. -/
def leading (d : Decimal) : Int := d.digits.length - 1 + d.exponent

/-- The same decimal without zeros at the end of its coefficient, of which at most `fuel` go. -/
def withoutZeros : (fuel : Nat) → Decimal → Decimal
  | 0, d => d
  | fuel + 1, d =>
    if d.coefficient ≠ 0 ∧ d.coefficient % 10 = 0 then
      withoutZeros fuel ⟨d.coefficient / 10, d.exponent + 1⟩
    else d

/-- Whether the decimal reads back as the magnitude at `place`. -/
def reads (place : Fin finitePlaces) (d : Decimal) : Bool :=
  Double.ofDecimal false d.coefficient d.exponent = .finite false place

def exact (place : Fin finitePlaces) : Decimal := ⟨Double.multiple place * Nat.pow 5 1074, -1074⟩

/-- The hit among the two neighbours of an exact value on the grid of its decimals with `cut` digits
less. -/
def onGrid? (place : Fin finitePlaces) (value : Decimal) (cut : Nat) : Option Decimal :=
  let unit := Nat.pow 10 cut
  let floor : Decimal := ⟨value.coefficient / unit, value.exponent + cut⟩
  let ceiling : Decimal := ⟨value.coefficient / unit + 1, value.exponent + cut⟩
  let rest := value.coefficient % unit
  match reads place floor, reads place ceiling with
  | true, true =>
    if 2 * rest < unit then some floor
    else if unit < 2 * rest then some ceiling
    else if floor.coefficient % 2 = 0 then some floor else some ceiling
  | true, false => some floor
  | false, true => some ceiling
  | false, false => none

/-- The decimal with the fewest digits that reads back as the magnitude at `place`. -/
def shortest (place : Fin finitePlaces) : Decimal :=
  let value := exact place
  let length := value.digits.length
  let found := (List.range' 1 17).findSome? fun count => onGrid? place value (length - count)
  let d := found.getD value
  withoutZeros d.digits.length d

end Decimal

end MessageBus
