import Atoll.Decimal.Double
import Atoll.Text.Blank
import Atoll.Text.Digit
import Atoll.Text.Search

/-!
# Reading numbers

Number texts may use the decimal digits of every script, and single underscores between digits.
`readDouble?` and `readInt?` take a text as a whole, with blanks around it; `readHex?` takes the
digits behind a `0x`.
-/

set_option autoImplicit false

namespace Atoll
namespace Decimal

open Text

/-- A decimal digit of any script as its ASCII digit; other characters stay. -/
def plainDigit (c : Char) : Char :=
  match decimal? c with
  | some d => Char.ofNat (48 + d)
  | none => c

/-- The text without its underscores, each of which must stand between two digits.  `before` is the
character in front of the text. -/
def dropUnderscores (isDigit : Char → Bool) (before : Char) : List Char → Option (List Char)
  | [] => if before == '_' then none else some []
  | c :: cs =>
    if c == '_' then if isDigit before then dropUnderscores isDigit c cs else none
    else if before == '_' && !isDigit c then none
    else (dropUnderscores isDigit c cs).map (c :: ·)

/-- An optional sign, and the rest of the text. -/
def takeSign : List Char → Bool × List Char
  | '-' :: cs => (true, cs)
  | '+' :: cs => (false, cs)
  | cs => (false, cs)

/-- The values of ASCII digits. -/
def digitValues (s : List Char) : List Nat :=
  s.map fun c => c.toNat - 48

/-- The double nearest to `digits * 10 ^ exponent`.  Numbers far outside the range of doubles are
settled by their size alone. -/
def ofScientific (negative : Bool) (digits : List Nat) (exponent : Int) : Float :=
  let digits := digits.dropWhile (· == 0)
  let top := digits.length + exponent
  if digits.isEmpty || top < -400 then Double.ofRatio negative 0 1
  else if top > 400 then Double.infinity negative
  else
    Double.ofRatio negative (ofDigits 10 digits * Nat.pow 10 exponent.toNat)
      (Nat.pow 10 (-exponent).toNat)

/-- An exponent: the letter, an optional sign and digits; zero when there is none.  What is left of
the text comes back with it. -/
def takeExponent (s : List Char) : Int × List Char :=
  match s with
  | e :: cs =>
    if e == 'e' || e == 'E' then
      let (negative, rest) := takeSign cs
      let digits := rest.takeWhile Char.isDigit
      if digits.isEmpty then (0, s)
      else
        let n : Int := ofDigits 10 (digitValues digits)
        (if negative then -n else n, rest.drop digits.length)
    else (0, s)
  | [] => (0, s)

/-- The double that an unsigned decimal spells: digits with an optional point, and an optional
exponent. -/
def readUnsigned? (negative : Bool) (s : List Char) : Option Float :=
  let whole := s.takeWhile Char.isDigit
  let rest := s.drop whole.length
  let (fraction, rest) := match rest with
    | '.' :: cs => (cs.takeWhile Char.isDigit, cs.dropWhile Char.isDigit)
    | _ => ([], rest)
  let (exponent, rest) := takeExponent rest
  if whole.isEmpty && fraction.isEmpty then none
  else if rest.isEmpty then
    some (ofScientific negative (digitValues (whole ++ fraction)) (exponent - fraction.length))
  else none

/-- The double that a text spells: a decimal, or a word for infinity or for not a number. -/
def readDouble? (s : List Char) : Option Float :=
  match dropUnderscores Char.isDigit ' ' ((trim s).map plainDigit) with
  | none => none
  | some plain =>
    let (negative, rest) := takeSign plain
    let word := String.ofList (rest.map Char.toLower)
    if word == "inf" || word == "infinity" then some (Double.infinity negative)
    else if word == "nan" then some Double.nan
    else readUnsigned? negative rest

/-- The number that the hexadecimal digits behind a `0x` spell.  An underscore may also stand in
front of the first digit. -/
def readHex? (s : List Char) : Option Nat :=
  let plain := s.map plainDigit
  let plain := match plain with
    | '_' :: cs => cs
    | cs => cs
  match dropUnderscores isHex ' ' plain with
  | some (c :: cs) => ((c :: cs).mapM hexValue?).map (ofDigits 16)
  | _ => none

/-- The integer that a text spells in decimal.  Texts with too many digits have none. -/
def readInt? (s : List Char) : Option Int :=
  let (negative, rest) := takeSign ((trim s).map plainDigit)
  match dropUnderscores Char.isDigit ' ' rest with
  | some (c :: cs) =>
    let digits := c :: cs
    if digits.all Char.isDigit && digits.length ≤ maxDigits then
      let n : Int := ofDigits 10 (digitValues digits)
      some (if negative then -n else n)
    else none
  | _ => none

end Decimal
end Atoll
