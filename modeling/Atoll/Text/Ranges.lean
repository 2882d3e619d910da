/-!
# Tables of code points

Sets of characters are kept as lists of closed intervals of code points.
-/

set_option autoImplicit false

namespace Atoll
namespace Text

/-- Whether a code point lies in one of the intervals. -/
def inRanges (ranges : List (Nat × Nat)) (n : Nat) : Bool :=
  ranges.any fun r => r.1 ≤ n && n ≤ r.2

/-- Whether a code point is one of `first, first + step, …, last`. -/
def inRun (first last step n : Nat) : Bool :=
  first ≤ n && n ≤ last && (n - first) % step == 0

/-- The character with the given code point.  A number that is none gives U+FFFD, and so does a
surrogate, which is no character on its own. -/
def scalar (n : Nat) : Char :=
  if n.isValidChar then Char.ofNat n else '�'

end Text
end Atoll
