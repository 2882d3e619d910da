import Atoll.Text.Base64

/-!
# Integers of variable length

An integer is written as digits of five bits, the lowest ones first, each as a character of base 64
whose sixth bit says that more digits follow.  The lowest bit of all is the sign.
-/

set_option autoImplicit false

namespace Atoll
namespace SourceMap

open Text

/-- The number with the sign in its lowest bit. -/
def foldSign (n : Int) : Nat :=
  if n < 0 then 2 * n.natAbs + 1 else 2 * n.natAbs

/-- The integer whose sign is in the lowest bit. -/
def unfoldSign (n : Nat) : Int :=
  if n % 2 == 1 then -(n / 2 : Nat) else (n / 2 : Nat)

/-- The digits of a number, all but the last with the mark that more follow. -/
def vlqDigits (n : Nat) : List Nat :=
  if n < 32 then [n] else (32 + n % 32) :: vlqDigits (n / 32)
  termination_by n
  decreasing_by omega

/-- An integer as text. -/
def encodeVlq (n : Int) : String :=
  String.ofList ((vlqDigits (foldSign n)).map base64Char)

/-- The integers of a text.  `acc` is what the digits of the current one have given, `weight` what
the next one counts.  An integer whose last digit is missing does not count; a character that is no
digit spoils the text. -/
def decodeFrom (acc weight : Nat) : List Char → Option (List Int)
  | [] => some []
  | c :: cs =>
    match base64Value? c with
    | none => none
    | some digit =>
      let acc := acc + digit % 32 * weight
      if digit < 32 then (decodeFrom 0 1 cs).map (unfoldSign acc :: ·)
      else decodeFrom acc (weight * 32) cs

/-- The integers of a text. -/
def decodeVlq? (s : String) : Option (List Int) :=
  decodeFrom 0 1 s.toList

end SourceMap
end Atoll
