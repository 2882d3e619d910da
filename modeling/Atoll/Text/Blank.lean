import Atoll.Text.Ranges

/-!
# Blank characters

What counts as white space, and the removal of blanks from the ends of a text.  The functions on
`List Char` do the work; `strip` is `trim` on `String`.
-/

set_option autoImplicit false

namespace Atoll
namespace Text

/-- The blank characters: the ASCII controls from tab to carriage return and from the file to the
unit separator, the space, the next-line control, and the space, line and paragraph separators of
Unicode.  Zero-width characters are not blank. -/
def blankRanges : List (Nat × Nat) :=
  [(0x9, 0xd), (0x1c, 0x20), (0x85, 0x85), (0xa0, 0xa0), (0x1680, 0x1680), (0x2000, 0x200a),
    (0x2028, 0x2029), (0x202f, 0x202f), (0x205f, 0x205f), (0x3000, 0x3000)]

/-- Whether a character is blank. -/
def isBlank (c : Char) : Bool :=
  inRanges blankRanges c.toNat

/-- The text without its leading blanks. -/
def trimStart (s : List Char) : List Char :=
  s.dropWhile isBlank

/-- The text without its trailing blanks. -/
def trimEnd (s : List Char) : List Char :=
  (s.reverse.dropWhile isBlank).reverse

/-- The text without blanks at either end. -/
def trim (s : List Char) : List Char :=
  trimEnd (trimStart s)

/-- Whether a text has nothing but blanks. -/
def allBlank (s : List Char) : Bool :=
  s.all isBlank

/-- `trim` on strings. -/
def strip (s : String) : String :=
  String.ofList (trim s.toList)

end Text
end Atoll
