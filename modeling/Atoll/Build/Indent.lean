import Atoll.Datum.Literal

/-!
# Indents

Pretty output has an indent in front of its lines, a multiple of a unit.  A text and a list are
multiplied by repeating them, a number by counting; other data has no multiples.
-/

set_option autoImplicit false

namespace Atoll
namespace Build

/-- The unit of indents. -/
inductive Indent where
  | text (s : String)
  | integer (n : Int)
  | real (x : Float)
  | list (items : List Datum)
  /-- Data without multiples. -/
  | unusable
  deriving Repr, Inhabited

namespace Indent

/-- The text that is the unit unless something else is asked for. -/
def standard : String :=
  "  "

/-- The unit that data stands for; truth values count as one and zero. -/
def ofDatum : Datum → Indent
  | .string s => .text s
  | .int n => .integer n
  | .bool b => .integer (if b then 1 else 0)
  | .float x => .real x
  | .array items => .list items
  | _ => .unusable

/-- Whether a unit has multiples. -/
def isUsable : Indent → Bool
  | .unusable => false
  | _ => true

/-- The indent of so many levels, as it is written. -/
def levels (depth : Nat) : Indent → String
  | .text s => Text.times depth s
  | .integer n => (Datum.int (n * depth)).literal
  | .real x => (Datum.float (x * Float.ofNat depth)).literal
  | .list items => (Datum.array (List.replicate depth items).flatten).literal
  | .unusable => ""

end Indent

end Build
end Atoll
