import Atoll.Decimal.Double

/-!
# The shortest decimal of a double

`shortest` gives the fewest digits that read back as the double, and among those the ones nearest
to it.  A double stands for every number that rounds to it, an interval whose ends belong to it
exactly when its mantissa is even.  For 1, 2, … digits the two decimals next to the double on the
grid of that many digits are tried; the first grid that has one in the interval wins.
-/

set_option autoImplicit false

namespace Atoll
namespace Decimal

open Double

/-- A decimal number: its digits, most significant first, stand behind a point that is `point`
places to the left of them. -/
structure Digits where
  digits : List Nat
  point : Int
  deriving DecidableEq, Repr

/-- The decimal digits of a natural number, most significant first. -/
def digitsOf (n : Nat) : List Nat :=
  (Nat.toDigits 10 n).map fun c => c.toNat - 48

/-- The decimal number `n * 10 ^ exponent`, without zeros at its end. -/
def Digits.ofScientific (n : Nat) (exponent : Int) : Digits :=
  let digits := digitsOf n
  ⟨(digits.reverse.dropWhile (· == 0)).reverse, digits.length + exponent⟩

/-- The interval of the numbers that round to a double: its low end, the double and its high end, as
numerators over one denominator. -/
structure Interval where
  low : Nat
  value : Nat
  high : Nat
  denominator : Nat
  closed : Bool

/-- The interval of the numbers that round to `mantissa * 2 ^ exponent`.  Above a power of two the
gaps between doubles are twice as wide as below it. -/
def Interval.ofParts (mantissa : Nat) (exponent : Int) : Interval :=
  let narrow := mantissa == Nat.pow 2 52 && exponent > -1074
  let unit := Nat.pow 2 exponent.toNat
  let value := 4 * mantissa * unit
  ⟨value - (if narrow then unit else 2 * unit), value, value + 2 * unit,
    4 * Nat.pow 2 (-exponent).toNat, mantissa % 2 == 0⟩

/-- The number of digits before the point of the fraction `n / d`; zero or less when it is small. -/
def magnitude (n d : Nat) : Int :=
  let guess := ((digitsOf n).length : Int) - (digitsOf d).length
  if d * Nat.pow 10 guess.toNat ≤ n * Nat.pow 10 (-guess).toNat then guess + 1 else guess

/-- The multiple of `10 ^ exponent` in the interval that is nearest to the double, if there is
one. -/
def Interval.nearest? (i : Interval) (exponent : Int) : Option Digits :=
  let grow := Nat.pow 10 (-exponent).toNat
  let unit := i.denominator * Nat.pow 10 exponent.toNat
  let below := i.value * grow / unit
  let inside (k : Nat) : Bool :=
    if i.closed then i.low * grow ≤ k * unit && k * unit ≤ i.high * grow
    else i.low * grow < k * unit && k * unit < i.high * grow
  let gapBelow := i.value * grow - below * unit
  let gapAbove := (below + 1) * unit - i.value * grow
  let preferBelow := gapBelow < gapAbove || (gapBelow == gapAbove && below % 2 == 0)
  if inside below && (preferBelow || !inside (below + 1)) then
    some (.ofScientific below exponent)
  else if inside (below + 1) then some (.ofScientific (below + 1) exponent)
  else none

/-- The fewest digits of `mantissa * 2 ^ exponent`.  Seventeen always suffice. -/
def shortest (mantissa : Nat) (exponent : Int) : Digits :=
  if mantissa == 0 then ⟨[0], 1⟩
  else
    let i := Interval.ofParts mantissa exponent
    let top := magnitude i.value i.denominator
    let found := (List.range 17).findSome? fun (n : Nat) => i.nearest? (top - (n + 1 : Nat))
    found.getD (.ofScientific mantissa 0)

end Decimal
end Atoll
