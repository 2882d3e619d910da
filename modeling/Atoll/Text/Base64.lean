/-!
# Base 64

The alphabet of 64 characters, and bytes written in it, three of them as four characters.
-/

set_option autoImplicit false

namespace Atoll
namespace Text

/-- The characters for the numbers below 64. -/
def base64Alphabet : List Char :=
  "ABCDEFGHIJKLMNOPQRSTUVWXYZabcdefghijklmnopqrstuvwxyz0123456789+/".toList

/-- The character for a number below 64. -/
def base64Char (n : Nat) : Char :=
  base64Alphabet.getD n 'A'

/-- The number that a character stands for. -/
def base64Value? (c : Char) : Option Nat :=
  base64Alphabet.findIdx? (· == c)

/-- Bytes in base 64; equals signs fill up the last four characters. -/
def base64 : List Nat → List Char
  | a :: b :: c :: rest =>
    let n := a * 65536 + b * 256 + c
    base64Char (n / 262144) :: base64Char (n / 4096 % 64) :: base64Char (n / 64 % 64)
      :: base64Char (n % 64) :: base64 rest
  | [a, b] =>
    let n := a * 65536 + b * 256
    [base64Char (n / 262144), base64Char (n / 4096 % 64), base64Char (n / 64 % 64), '=']
  | [a] =>
    let n := a * 65536
    [base64Char (n / 262144), base64Char (n / 4096 % 64), '=', '=']
  | [] => []

end Text
end Atoll
