/-!
# Doubles as exact numbers

A finite double is a whole number of at most 53 bits times a power of two.  `view` takes a double
apart into its sign, that number and that power, so that comparing, rounding and printing are
arithmetic on integers.  `ofRatio` goes back: it rounds a fraction to the nearest double, ties to
the even one.
-/

set_option autoImplicit false

namespace Atoll
namespace Double

/-- What a double stands for: not a number, an infinity, or `± mantissa * 2 ^ exponent`. -/
inductive View where
  | nan
  | infinite (negative : Bool)
  | finite (negative : Bool) (mantissa : Nat) (exponent : Int)
  deriving DecidableEq, Repr

/-- The parts of a double with the given bits. -/
def viewBits (bits : Nat) : View :=
  let negative := bits / Nat.pow 2 63 == 1
  let field : Nat := bits / Nat.pow 2 52 % Nat.pow 2 11
  let fraction : Nat := bits % Nat.pow 2 52
  if field == 2047 then if fraction == 0 then .infinite negative else .nan
  else if field == 0 then .finite negative fraction (-1074)
  else .finite negative (Nat.pow 2 52 + fraction) ((field : Int) - 1075)

/-- The parts of a double. -/
def view (x : Float) : View :=
  viewBits x.toBits.toNat

/-- The quotient of two natural numbers rounded to the nearest one, ties to the even one. -/
def roundDiv (n d : Nat) : Nat :=
  let q := n / d
  let r := n % d
  if 2 * r > d || (2 * r == d && q % 2 == 1) then q + 1 else q

/-- The numerator and denominator of `n / d` times `2 ^ (-exponent)`. -/
def scaleDown (n d : Nat) (exponent : Int) : Nat × Nat :=
  if exponent < 0 then (n * Nat.pow 2 (-exponent).toNat, d)
  else (n, d * Nat.pow 2 exponent.toNat)

/-- The exponent at which a fraction has 53 bits before the point, no less than the least one of a
double. -/
def exponentFor (n d : Nat) : Int :=
  let guess := (n.log2 : Int) - (d.log2 : Int) - 52
  let (a, b) := scaleDown n d guess
  max (if a / b < Nat.pow 2 52 then guess - 1 else guess) (-1074)

/-- The bits of the double nearest to the fraction `n / d`, without its sign. -/
def ratioBits (n d : Nat) : Nat :=
  if n == 0 || d == 0 then 0
  else
    let exponent := exponentFor n d
    let (a, b) := scaleDown n d exponent
    let mantissa := roundDiv a b
    let (mantissa, exponent) :=
      if mantissa == Nat.pow 2 53 then (Nat.pow 2 52, exponent + 1) else (mantissa, exponent)
    if exponent > 971 then 2047 * Nat.pow 2 52
    else if mantissa < Nat.pow 2 52 then mantissa
    else (exponent + 1075).toNat * Nat.pow 2 52 + (mantissa - Nat.pow 2 52)

/-- The double nearest to `± n / d`, ties to even; an infinity when it is too large. -/
def ofRatio (negative : Bool) (n d : Nat) : Float :=
  Float.ofBits (UInt64.ofNat ((if negative then Nat.pow 2 63 else 0) + ratioBits n d))

/-- The double nearest to an integer. -/
def ofInt (n : Int) : Float :=
  ofRatio (decide (n < 0)) n.natAbs 1

/-- Not a number. -/
def nan : Float :=
  Float.ofBits 0x7ff8000000000000

/-- Infinity with the given sign. -/
def infinity (negative : Bool) : Float :=
  Float.ofBits (if negative then 0xfff0000000000000 else 0x7ff0000000000000)

/-- Whether a double is not a number. -/
def isNaN (x : Float) : Bool :=
  view x == .nan

/-- Whether a double is infinite. -/
def isInfinite (x : Float) : Bool :=
  match view x with
  | .infinite _ => true
  | _ => false

/-- Whether a double has its sign bit set. -/
def isNegative (x : Float) : Bool :=
  x.toBits.toNat / Nat.pow 2 63 == 1

/-- `± mantissa * 2 ^ exponent` rounded towards minus infinity. -/
def floorParts (negative : Bool) (mantissa : Nat) (exponent : Int) : Int :=
  let signed : Int := if negative then -mantissa else mantissa
  if exponent < 0 then signed.fdiv (Nat.pow 2 (-exponent).toNat)
  else signed * Nat.pow 2 exponent.toNat

/-- The integer that a finite double is, if it is one. -/
def toInt? (x : Float) : Option Int :=
  match view x with
  | .finite negative mantissa exponent =>
    let n := floorParts negative mantissa exponent
    if exponent < 0 && mantissa % Nat.pow 2 (-exponent).toNat != 0 then none else some n
  | _ => none

/-- The largest integer that is at most a finite double. -/
def floor? (x : Float) : Option Int :=
  match view x with
  | .finite negative mantissa exponent => some (floorParts negative mantissa exponent)
  | _ => none

/-- The least integer that is at least a finite double. -/
def ceil? (x : Float) : Option Int :=
  match view x with
  | .finite negative mantissa exponent => some (-floorParts (!negative) mantissa exponent)
  | _ => none

/-- A finite double with its fraction cut off. -/
def truncate? (x : Float) : Option Int :=
  if isNegative x then ceil? x else floor? x

/-- The remainder of two finite doubles, the second not zero, with the sign of the first. -/
def remainder (x y : Float) : Float :=
  match view x, view y with
  | .finite negative m e, .finite _ n f =>
    let low := min e f
    let a := m * Nat.pow 2 (e - low).toNat
    let b := n * Nat.pow 2 (f - low).toNat
    let r := a % b
    if low < 0 then ofRatio negative r (Nat.pow 2 (-low).toNat)
    else ofRatio negative (r * Nat.pow 2 low.toNat) 1
  | _, _ => nan

/-- How an integer compares with a double; `none` when the double is not a number. -/
def compareInt (n : Int) (x : Float) : Option Ordering :=
  match view x with
  | .nan => none
  | .infinite negative => some (if negative then .gt else .lt)
  | .finite negative mantissa exponent =>
    let signed : Int := if negative then -mantissa else mantissa
    some (if exponent < 0 then compare (n * Nat.pow 2 (-exponent).toNat) signed
      else compare n (signed * Nat.pow 2 exponent.toNat))

end Double
end Atoll
