/-!
# Lines of a listing

A listing is cut at every kind of line end: newline, carriage return, the two together, vertical
tab, form feed, the file, group and record separators, next line, and the line and paragraph
separators of Unicode.  The lines keep their ends.
-/

set_option autoImplicit false

namespace Atoll
namespace Text

/-- The characters that end a line of a listing. -/
def endsListingLine (c : Char) : Bool :=
  [0xa, 0xb, 0xc, 0xd, 0x1c, 0x1d, 0x1e, 0x85, 0x2028, 0x2029].contains c.toNat

/-- The lines of a listing; `line` holds the current line, backwards. -/
def listingFrom (line : List Char) : List Char → List (List Char)
  | [] => if line.isEmpty then [] else [line.reverse]
  | '\r' :: '\n' :: cs => ('\n' :: '\r' :: line).reverse :: listingFrom [] cs
  | c :: cs =>
    if endsListingLine c then (c :: line).reverse :: listingFrom [] cs
    else listingFrom (c :: line) cs

/-- The lines of a listing, with their ends. -/
def listing (s : List Char) : List (List Char) :=
  listingFrom [] s

end Text
end Atoll
