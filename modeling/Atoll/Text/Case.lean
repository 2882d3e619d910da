import Atoll.Text.Case.Table

/-!
# Upper and lower case

Full case mapping: a character may have several characters as its image, and a capital sigma
becomes a final sigma at the end of a word.
-/

set_option autoImplicit false

namespace Atoll
namespace Text

/-- Whether a character is upper case. -/
def isUpper (c : Char) : Bool :=
  if c.toNat < 0x80 then c.isUpper
  else upperRuns.any fun (first, last, step) => inRun first last step c.toNat

/-- The image of a character under a table of runs, the character itself where no run has it. -/
def mapByRuns (runs : List (Nat × Nat × Nat × Int)) (c : Char) : Char :=
  match runs.find? fun (first, last, step, _) => inRun first last step c.toNat with
  | some (_, _, _, distance) => scalar (c.toNat + distance).toNat
  | none => c

/-- The image of a character under a mapping given by its long images and its runs. -/
def caseImage (long : List (Nat × List Nat)) (runs : List (Nat × Nat × Nat × Int)) (c : Char) :
    List Char :=
  match long.lookup c.toNat with
  | some image => image.map scalar
  | none => [mapByRuns runs c]

/-- The upper-case image of a character. -/
def upperImage (c : Char) : List Char :=
  if c.toNat < 0x80 then [c.toUpper] else caseImage toUpperLong toUpperRuns c

/-- The lower-case image of a character that stands alone. -/
def lowerImage (c : Char) : List Char :=
  if c.toNat < 0x80 then [c.toLower] else caseImage toLowerLong toLowerRuns c

/-- Whether the nearest character that case mapping does not look past is cased. -/
def meetsCased (s : List Char) : Bool :=
  match s.find? fun c => !inRanges caseIgnorableRanges c.toNat with
  | some c => inRanges casedRanges c.toNat
  | none => false

/-- Lower case with the characters before the text at hand, nearest first.  A capital sigma with a
cased character before it and none after it is final. -/
def lowerFrom : List Char → List Char → List Char
  | _, [] => []
  | before, c :: rest =>
    let image :=
      if c == 'Σ' then if meetsCased before && !meetsCased rest then ['ς'] else ['σ']
      else lowerImage c
    image ++ lowerFrom (c :: before) rest

/-- The upper-case form of a text. -/
def upper (s : String) : String :=
  String.ofList (s.toList.flatMap upperImage)

/-- The lower-case form of a text. -/
def lower (s : String) : String :=
  String.ofList (lowerFrom [] s.toList)

/-- Whether a text starts with an upper-case character. -/
def startsUpper (s : String) : Bool :=
  match s.toList with
  | c :: _ => isUpper c
  | [] => false

end Text
end Atoll
