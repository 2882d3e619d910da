/-!
# Searching, cutting and replacing

The functions work on lists of characters.  Offsets count characters.
-/

set_option autoImplicit false

namespace Atoll
namespace Text

/-- What follows `lead` in a text that starts with it. -/
def after? (lead s : List Char) : Option (List Char) :=
  lead.isPrefixOf? s

/-- What follows the literal `lead` in a text that starts with it. -/
def afterLiteral? (lead : String) (s : List Char) : Option (List Char) :=
  after? lead.toList s

/-- The offset of the first occurrence. -/
def find? (needle : List Char) : List Char → Option Nat
  | [] => if needle.isEmpty then some 0 else none
  | c :: cs => if needle.isPrefixOf (c :: cs) then some 0 else (find? needle cs).map (· + 1)

/-- The offset of the last occurrence. -/
def findLast? (needle : List Char) : List Char → Option Nat
  | [] => if needle.isEmpty then some 0 else none
  | c :: cs =>
    match findLast? needle cs with
    | some i => some (i + 1)
    | none => if needle.isPrefixOf (c :: cs) then some 0 else none

/-- Whether `needle` occurs in the text. -/
def occursIn (needle s : List Char) : Bool :=
  (find? needle s).isSome

/-- The text cut at every character that satisfies `p`; the cuts are left out. -/
def cutWhere (p : Char → Bool) : List Char → List (List Char)
  | [] => [[]]
  | c :: cs =>
    if p c then [] :: cutWhere p cs
    else
      match cutWhere p cs with
      | [] => [[c]]
      | line :: lines => (c :: line) :: lines

/-- The lines of a text, cut at newlines. -/
def lines (s : List Char) : List (List Char) :=
  cutWhere (· == '\n') s

/-- The pieces between the occurrences of a separator, which are found from left to right and do
not overlap.  `skip` counts the characters of the current occurrence still to be passed over. -/
def splitFrom (sep : List Char) (skip : Nat) (piece : List Char) : List Char → List (List Char)
  | [] => [piece.reverse]
  | c :: cs =>
    match skip with
    | n + 1 => splitFrom sep n piece cs
    | 0 =>
      if sep.isPrefixOf (c :: cs) then piece.reverse :: splitFrom sep (sep.length - 1) [] cs
      else splitFrom sep 0 (c :: piece) cs

/-- The pieces between the occurrences of a non-empty separator. -/
def splitOn (sep s : List Char) : List (List Char) :=
  splitFrom sep 0 [] s

/-- Every occurrence of `old` replaced.  An empty `old` occurs before each character and at the
end. -/
def replaceAll (old new s : List Char) : List Char :=
  if old.isEmpty then new ++ s.flatMap (fun c => c :: new)
  else new.intercalate (splitOn old s)

/-- The first occurrence of `old` replaced. -/
def replaceFirst (old new s : List Char) : List Char :=
  match find? old s with
  | some i => s.take i ++ new ++ s.drop (i + old.length)
  | none => s

/-- Windows line ends turned into plain newlines. -/
def unifyNewlines : List Char → List Char
  | '\r' :: '\n' :: cs => '\n' :: unifyNewlines cs
  | c :: cs => c :: unifyNewlines cs
  | [] => []

/-- `unifyNewlines` on strings. -/
def normalize (s : String) : String :=
  String.ofList (unifyNewlines s.toList)

/-- All line ends turned into plain newlines, also carriage returns on their own. -/
def plainNewlines : List Char → List Char
  | '\r' :: '\n' :: cs => '\n' :: plainNewlines cs
  | '\r' :: cs => '\n' :: plainNewlines cs
  | c :: cs => c :: plainNewlines cs
  | [] => []

/-- A string as often as asked, a negative count counting as zero. -/
def times (n : Int) (s : String) : String :=
  String.join (List.replicate n.toNat s)

end Text
end Atoll
