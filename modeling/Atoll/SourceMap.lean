import Atoll.Datum
import Atoll.Position
import Atoll.SourceMap.Vlq
import Atoll.Text.Search

/-!
# Source maps

Generated text is a list of lines, some of which know the place in the source that they come from.
A source map lists these places: one group for each line, with the differences to the place before
as integers of variable length.
-/

set_option autoImplicit false

namespace Atoll

/-- A generated line; if it has an origin, that is where its text from `column` on comes from. -/
structure GeneratedLine where
  text : String
  origin : Option Position
  column : Int
  deriving DecidableEq, Repr, Inhabited

namespace SourceMap

/-- A place in generated text and the place in the source it comes from, all counted from zero. -/
structure Mapping where
  generatedLine : Nat
  generatedColumn : Int
  sourceLine : Int
  sourceColumn : Int
  deriving DecidableEq, Repr, Inhabited

/-- The generated text, with a newline behind its last line. -/
def text (lines : List GeneratedLine) : String :=
  "\n".intercalate (lines.map (·.text)) ++ "\n"

/-! ## Writers -/

/-- What generated text is written to, line by line: how it starts, what a line does to it, and the
text that it has in the end. -/
structure Writer (σ : Type) where
  start : σ
  writeLine : σ → GeneratedLine → σ
  value : σ → String

/-- Keeps the texts of the lines. -/
def textWriter : Writer (List String) where
  start := []
  writeLine texts line := texts ++ [line.text]
  value texts := "\n".intercalate texts ++ "\n"

/-- Keeps where the lines come from as well. -/
def mappedWriter : Writer (List GeneratedLine) where
  start := []
  writeLine lines line := lines ++ [line]
  value := text

/-! ## Mappings -/

/-- The mapping of a line with the given number, if it has an origin. -/
def lineMapping? (number : Nat) (line : GeneratedLine) : Option Mapping :=
  line.origin.map fun p => ⟨number, line.column, p.line - 1, p.column - 1⟩

/-- The mappings of lines; `number` is the number of the first one. -/
def mappingsFrom (number : Nat) : List GeneratedLine → List Mapping
  | [] => []
  | line :: rest => (lineMapping? number line).toList ++ mappingsFrom (number + 1) rest

/-- The mappings of generated text. -/
def mappings (lines : List GeneratedLine) : List Mapping :=
  mappingsFrom 0 lines

/-! ## Encoding -/

/-- The group of each line.  A segment has the column, the number of the source, which is always
zero, and how far the place is from the last place. -/
def groupsFrom (lastLine lastColumn : Int) : List GeneratedLine → List String
  | [] => []
  | line :: rest =>
    match line.origin with
    | none => "" :: groupsFrom lastLine lastColumn rest
    | some p =>
      let sourceLine := p.line - 1
      let sourceColumn := p.column - 1
      (encodeVlq line.column ++ encodeVlq 0 ++ encodeVlq (sourceLine - lastLine)
          ++ encodeVlq (sourceColumn - lastColumn))
        :: groupsFrom sourceLine sourceColumn rest

/-- The mappings of generated text in one text. -/
def encode (lines : List GeneratedLine) : String :=
  ";".intercalate (groupsFrom 0 0 lines)

/-- The source map of generated text. -/
def toDatum (lines : List GeneratedLine) (sourceName : String) (content : Option String)
    (file : String) : Datum :=
  .object ([("version", .int 3), ("file", .string file), ("sources", .array [.string sourceName]),
    ("names", .array []), ("mappings", .string (encode lines))]
    ++ (content.map fun s => ("sourcesContent", .array [.string s])).toList)

/-! ## Decoding -/

/-- Why mappings cannot be read. -/
inductive Malformed where
  /-- A character is no digit. -/
  | character
  /-- A segment has no integer at all. -/
  | segment
  deriving DecidableEq, Repr

/-- The mappings of the segments of a group, and the last place in the source.  Segments without a
source move on in the line only. -/
def decodeSegments (number : Nat) (column line sourceColumn : Int) :
    List (List Char) → Except Malformed (List Mapping × Int × Int)
  | [] => .ok ([], line, sourceColumn)
  | segment :: rest =>
    match decodeVlq? (String.ofList segment) with
    | none => .error .character
    | some [] => .error .segment
    | some (c :: _ :: l :: s :: _) => do
      let mapping := ⟨number, column + c, line + l, sourceColumn + s⟩
      let (more, place) ←
        decodeSegments number (column + c) (line + l) (sourceColumn + s) rest
      .ok (mapping :: more, place)
    | some (c :: _) => decodeSegments number (column + c) line sourceColumn rest

/-- The mappings of groups; `number` is the line of the first one. -/
def decodeGroups (number : Nat) (line column : Int) :
    List (List Char) → Except Malformed (List Mapping)
  | [] => .ok []
  | group :: rest => do
    let segments := (Text.cutWhere (· == ',') group).filter (!·.isEmpty)
    let (here, line, column) ← decodeSegments number 0 line column segments
    .ok (here ++ (← decodeGroups (number + 1) line column rest))

/-- The mappings that a text encodes. -/
def decode (s : String) : Except Malformed (List Mapping) :=
  decodeGroups 0 0 0 (Text.cutWhere (· == ';') s.toList)

end SourceMap
end Atoll
