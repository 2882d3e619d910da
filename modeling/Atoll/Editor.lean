import Atoll.Markup.Node.Parser

/-!
# Diagnostics for an editor

An editor counts lines and characters from zero and marks a range of text.  It can only be told
numbers that fit into 31 bits.  `Mark.ofReport?` turns a report into such a mark; `marksOf?` gives
the marks of a whole document.
-/

set_option autoImplicit false

namespace Atoll
namespace Editor

open Markup

/-- The number of a line or character that an editor can be told: it has 31 bits. -/
abbrev Coordinate := Fin 0x80000000

/-- The coordinate that a number is; `none` if it is out of range. -/
def Coordinate.ofInt? (n : Int) : Option Coordinate :=
  if h : 0 ≤ n ∧ n < 0x80000000 then some ⟨n.toNat, by omega⟩ else none

/-- A place in an editor, counted from zero. -/
structure Spot where
  line : Coordinate
  character : Coordinate
  deriving DecidableEq, Repr

/-- A marked range with what is wrong there. -/
structure Mark where
  start : Spot
  stop : Spot
  message : String
  severity : Severity
  code : String
  deriving DecidableEq, Repr

/-- The name under which the marks are published. -/
def sourceName : String :=
  "islet"

/-- The number by which an editor knows a severity. -/
def rank : Severity → Int
  | .error => 1
  | .warning => 2

/-- Whether the first position comes behind the second, by line and then by column. -/
def isBehind (p q : Position) : Bool :=
  q.line < p.line || (p.line == q.line && q.column < p.column)

/-- The spot with a line and a character, if both are in range. -/
def Spot.ofInts? (line character : Int) : Option Spot := do
  some ⟨← Coordinate.ofInt? line, ← Coordinate.ofInt? character⟩

/-- Where the mark of a span starts. -/
def startOf? (s : Span) : Option Spot :=
  Spot.ofInts? (s.start.line - 1) (s.start.column - 1)

/-- Where the mark of a span ends.  A span that does not reach beyond its start marks one
character. -/
def stopOf? (s : Span) : Option Spot :=
  Spot.ofInts? (max s.stop.line s.start.line - 1)
    (if isBehind s.stop s.start then s.stop.column - 1 else s.start.column)

/-- The mark for a report, if an editor can be told where it is. -/
def Mark.ofReport? (r : Report) : Option Mark := do
  some ⟨← startOf? r.span, ← stopOf? r.span, r.message, r.severity, r.code⟩

/-- The marks of a document, if an editor can be told where they are. -/
def marksOf? (text : String) : Option (List Mark) :=
  (parse text).diagnostics.mapM fun d => Mark.ofReport? d.report

end Editor
end Atoll
