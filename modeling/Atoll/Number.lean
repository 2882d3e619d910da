import Atoll.Decimal.Layout
import Atoll.Decimal.Reader
import Atoll.Trouble

/-!
# Numbers of expressions

A number is an unbounded integer or a double.  Arithmetic on integers is exact; as soon as a double
takes part, integers become doubles, which fails for an integer outside their range.  `collapse`
turns a double back into an integer where that is exact.  Comparisons are exact and never fail, so
an integer and a double are equal only when they are the same number.
-/

set_option autoImplicit false

namespace Atoll

/-- An integer or a double. -/
inductive Number where
  | int (n : Int)
  | float (x : Float)
  deriving Repr, Inhabited

namespace Number

/-- Not a number. -/
def nan : Number :=
  .float Double.nan

/-- A double as an integer where it is one of less than 2⁵³. -/
def collapse (x : Float) : Number :=
  match Double.toInt? x with
  | some n => if n.natAbs < Nat.pow 2 53 then .int n else .float x
  | none => .float x

/-- The double nearest to a number. -/
def toFloat : Number → Except Trouble Float
  | .float x => .ok x
  | .int n =>
    let x := Double.ofInt n
    if Double.isInfinite x then .error .largeInteger else .ok x

/-- Whether a number is not a number.  An integer outside the range of doubles cannot be asked. -/
def isNaN (n : Number) : Except Trouble Bool :=
  n.toFloat.map Double.isNaN

/-- Whether a number is infinite. -/
def isInfinite (n : Number) : Except Trouble Bool :=
  n.toFloat.map Double.isInfinite

/-- Whether a number is within the range of doubles and finite. -/
def isFinite (n : Number) : Bool :=
  match n.toFloat with
  | .ok x => !Double.isNaN x && !Double.isInfinite x
  | .error _ => false

/-- How two numbers compare; `none` when one of them is not a number. -/
def compare? : Number → Number → Option Ordering
  | .int a, .int b => some (compare a b)
  | .int a, .float y => Double.compareInt a y
  | .float x, .int b => (Double.compareInt b x).map Ordering.swap
  | .float x, .float y =>
    if x < y then some .lt else if x == y then some .eq else if y < x then some .gt else none

/-- Whether two numbers are equal. -/
def eq (a b : Number) : Bool :=
  compare? a b == some .eq

/-- Whether a number is zero. -/
def isZero (n : Number) : Bool :=
  eq n (.int 0)

/-- Whether the first number is less than the second. -/
def lt (a b : Number) : Bool :=
  compare? a b == some .lt

/-- Whether the first number is at most the second. -/
def le (a b : Number) : Bool :=
  compare? a b == some .lt || compare? a b == some .eq

/-- An operation that is exact on integers and collapses doubles. -/
def combine (onInts : Int → Int → Int) (onFloats : Float → Float → Float) :
    Number → Number → Except Trouble Number
  | .int a, .int b => .ok (.int (onInts a b))
  | a, b => do .ok (collapse (onFloats (← a.toFloat) (← b.toFloat)))

/-- The sum. -/
def add : Number → Number → Except Trouble Number :=
  combine (· + ·) (· + ·)

/-- The difference. -/
def sub : Number → Number → Except Trouble Number :=
  combine (· - ·) (· - ·)

/-- The product. -/
def mul : Number → Number → Except Trouble Number :=
  combine (· * ·) (· * ·)

/-- The quotient.  Division by zero gives an infinity, or not a number for zero by zero; a quotient
of integers is rounded once. -/
def div (a b : Number) : Except Trouble Number :=
  if b.isZero then do
    if a.isZero then .ok nan
    else if ← a.isNaN then .ok nan
    else
      let x ← a.toFloat
      let y ← b.toFloat
      .ok (.float (Double.infinity (Double.isNegative x != Double.isNegative y)))
  else
    match a, b with
    | .int m, .int n =>
      let x := Double.ofRatio (decide (m < 0) != decide (n < 0)) m.natAbs n.natAbs
      if Double.isInfinite x then .error .largeQuotient else .ok (collapse x)
    | _, _ => do .ok (collapse ((← a.toFloat) / (← b.toFloat)))

/-- The remainder, with the sign of the first number. -/
def rem (a b : Number) : Except Trouble Number := do
  if b.isZero then .ok nan
  else if ← a.isInfinite then .ok nan
  else if ← a.isNaN then .ok nan
  else if ← b.isNaN then .ok nan
  else if ← b.isInfinite then .ok a
  else .ok (collapse (Double.remainder (← a.toFloat) (← b.toFloat)))

/-- The number with its sign changed. -/
def neg : Number → Number
  | .int n => .int (-n)
  | .float x => collapse (-x)

/-- The absolute value. -/
def abs : Number → Number
  | .int n => .int n.natAbs
  | .float x => .float x.abs

/-- The integer that a number gives when its fraction is cut off.  Not a number has none, and the
infinities are too large. -/
def truncate : Number → Except Trouble Int
  | .int n => .ok n
  | .float x =>
    match Double.truncate? x with
    | some n => .ok n
    | none => .error (if Double.isNaN x then .notANumber else .infinite)

/-- The largest integer that is at most the number. -/
def floor : Number → Except Trouble Int
  | .int n => .ok n
  | .float x =>
    match Double.floor? x with
    | some n => .ok n
    | none => .error (if Double.isNaN x then .notANumber else .infinite)

/-- The least integer that is at least the number. -/
def ceil : Number → Except Trouble Int
  | .int n => .ok n
  | .float x =>
    match Double.ceil? x with
    | some n => .ok n
    | none => .error (if Double.isNaN x then .notANumber else .infinite)

/-- The nearest integer, a half going up. -/
def round (n : Number) : Except Trouble Number := do
  let x ← n.toFloat
  if Double.isNaN x || Double.isInfinite x then .ok n
  else (floor (.float (x + 0.5))).map .int

/-- The sign as minus one, zero or one. -/
def sign (n : Number) : Number :=
  match compare? n (.int 0) with
  | some .lt => .int (-1)
  | some .gt => .int 1
  | _ => .int 0

/-- The square root; negative numbers have none. -/
def sqrt (n : Number) : Except Trouble Number := do
  if lt n (.int 0) then .ok nan
  else if ← n.isNaN then .ok nan
  else .ok (collapse (← n.toFloat).sqrt)

/-- A power of doubles.  A negative base with a broken exponent and zero with a negative exponent
have none; a result that is too large is an error too. -/
def pow (a b : Number) : Except Trouble Number := do
  let x ← a.toFloat
  let y ← b.toFloat
  let z := x.pow y
  let finite := !(Double.isNaN x || Double.isInfinite x || Double.isNaN y || Double.isInfinite y)
  if finite && Double.isNaN z then .error .noPower
  else if finite && Double.isInfinite z then .error (if x == 0.0 then .noPower else .largePower)
  else .ok (collapse z)

/-- The first of the numbers that no other one comes before. -/
def pick (before : Number → Number → Bool) (first : Number) (rest : List Number) : Number :=
  rest.foldl (fun best n => if before n best then n else best) first

/-- Counts of places behind the point are below this number. -/
def placesLimit : Int :=
  Nat.pow 2 31

/-- The number with a fixed count of places behind the point. -/
def fixed (n : Number) (places : Int) : Except Trouble String := do
  if places < 0 then .error .negativePlaces
  else if Text.countLimit ≤ places then .error .unreadPlaces
  else
    let x ← n.toFloat
    if placesLimit ≤ places then .error .manyPlaces
    else .ok (Decimal.fixed places.toNat x)

/-- A number as text; integers with too many digits have none.  A whole double below 10²¹ is written
like an integer. -/
def text? : Number → Option String
  | .int n => Decimal.intText? n
  | .float x =>
    match Double.view x with
    | .nan => some "NaN"
    | .infinite negative => some (if negative then "-Infinity" else "Infinity")
    | .finite _ _ _ =>
      match Double.toInt? x with
      | some n =>
        if n.natAbs < Nat.pow 10 21 then some (toString n) else some (Decimal.literalWith 1 x)
      | none => some (Decimal.literalWith 1 x)

/-- A number as it stands in a message. -/
def literal? : Number → Option String
  | .int n => Decimal.intText? n
  | .float x => some (Decimal.literal x)

/-- The number that a text spells: nothing is zero, `0x` starts hexadecimal digits, and what spells
no number is not a number. -/
def ofText (s : String) : Number :=
  match Text.trim s.toList with
  | [] => .int 0
  | '0' :: x :: cs =>
    if x == 'x' || x == 'X' then
      match Decimal.readHex? cs with
      | some n => .int n
      | none => nan
    else (Decimal.readDouble? ('0' :: x :: cs)).elim nan collapse
  | cs => (Decimal.readDouble? cs).elim nan collapse

end Number

end Atoll
