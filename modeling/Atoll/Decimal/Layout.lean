import Atoll.Decimal.Shortest
import Atoll.Text.Digit

/-!
# Writing doubles

`positional` and `exponential` are the two ways to write digits; `literal` chooses between them and
is how a double stands in generated code, in data and in messages.  `fixed` writes a given number of
places behind the point.
-/

set_option autoImplicit false

namespace Atoll
namespace Decimal

open Double

/-- Digits as text. -/
def digitText (digits : List Nat) : String :=
  String.ofList (digits.map fun d => Char.ofNat (48 + d))

/-- Digits in positional notation, with at least one digit on each side of the point. -/
def positional (d : Digits) : String :=
  if d.point ≤ 0 then "0." ++ digitText (List.replicate (-d.point).toNat 0 ++ d.digits)
  else
    let whole := d.point.toNat
    let fill := List.replicate (whole - d.digits.length) 0
    let fraction := d.digits.drop whole
    digitText (d.digits.take whole ++ fill) ++ "."
      ++ (if fraction.isEmpty then "0" else digitText fraction)

/-- Digits in exponential notation; the exponent has its sign and at least `width` digits. -/
def exponential (width : Nat) (d : Digits) : String :=
  let exponent := d.point - 1
  let size := digitsOf exponent.natAbs
  let fraction := d.digits.drop 1
  digitText (d.digits.take 1) ++ (if fraction.isEmpty then "" else "." ++ digitText fraction)
    ++ "e" ++ (if exponent < 0 then "-" else "+")
    ++ digitText (List.replicate (width - size.length) 0 ++ size)

/-- A double in its shortest form: positional from a ten-thousandth up to ten to the sixteenth, and
else with an exponent of at least `width` digits. -/
def literalWith (width : Nat) (x : Float) : String :=
  match view x with
  | .nan => "nan"
  | .infinite negative => if negative then "-inf" else "inf"
  | .finite negative mantissa exponent =>
    let d := shortest mantissa exponent
    (if negative then "-" else "")
      ++ (if -4 < d.point && d.point ≤ 16 then positional d else exponential width d)

/-- A double as it stands in generated code and in data. -/
def literal (x : Float) : String :=
  literalWith 2 x

/-- A double with a fixed number of places behind the point; a tie goes to the even digit. -/
def fixed (places : Nat) (x : Float) : String :=
  match view x with
  | .nan => "nan"
  | .infinite negative => if negative then "-inf" else "inf"
  | .finite negative mantissa exponent =>
    let scaled := roundDiv (mantissa * Nat.pow 2 exponent.toNat * Nat.pow 10 places)
      (Nat.pow 2 (-exponent).toNat)
    let digits := digitsOf scaled
    let digits := List.replicate (places + 1 - digits.length) 0 ++ digits
    let whole := digits.length - places
    (if negative then "-" else "") ++ digitText (digits.take whole)
      ++ (if places == 0 then "" else "." ++ digitText (digits.drop whole))

/-- An integer as text.  Integers with too many digits have none. -/
def intText? (n : Int) : Option String :=
  if n.natAbs < Nat.pow 10 Text.maxDigits then some (toString n) else none

end Decimal
end Atoll
