import Atoll.Markup.Node
import Atoll.Stored

/-!
# What a module is made from

A module needs of a document its script and where that starts, its template as data, where the
document starts, and whether some component asks for hydration.
-/

set_option autoImplicit false

namespace Atoll
namespace Synthesis

open Markup

/-- The parts of a document that its module is made from.  The start of a script may not be
known. -/
structure Outline where
  script : Option (String × Option Position)
  template : Datum
  start : Position
  hydrated : Bool
  deriving Repr, Inhabited

/-- The parts of a document. -/
def Outline.ofFragment (f : Fragment) : Outline :=
  ⟨f.frontmatter?.map fun (code, span) => (code, some span.start),
    (Stored.ofFragment f.template).toDatum false, f.span.start, f.hasClientDirectives⟩

/-! ## Stored documents -/

/-- The integer that a coordinate is; a flag counts as zero or one. -/
def coordinate? : Datum → Option Int
  | .int n => some n
  | .bool b => some (if b then 1 else 0)
  | _ => none

/-- The position that a stored one is, if its line and column are integers. -/
def position? (p : StoredPosition) : Option Position := do
  let line ← coordinate? p.line
  let column ← coordinate? p.column
  some ⟨line, column, (coordinate? p.offset).getD 0⟩

/-- The text of a stored script; an empty list or object is as good as an empty text. -/
def scriptText? : Datum → Option String
  | .string code => some code
  | .array [] => some ""
  | .object [] => some ""
  | _ => none

/-- Whether a stored script can be looked up in the text of its document. -/
def isText : Datum → Bool
  | .string _ => true
  | _ => false

/-- What is asked of a stored document besides its parts: whether its start matters, because a
source map is wanted, and whether its statements are looked up in its text. -/
structure Demand where
  mapped : Bool
  located : Bool
  deriving DecidableEq, Repr

/-- What a module takes from a stored script; `none` if the script does not do. -/
def scriptPart? (demand : Demand) (code : Datum) (span : StoredSpan) :
    Option (String × Option Position) := do
  let text ← scriptText? code
  if demand.located && !isText code then none else some (text, position? span.start)

/-- The start of a stored document; `none` if it matters and is not known. -/
def startPart? (demand : Demand) (span : StoredSpan) : Option Position :=
  match position? span.start with
  | some p => some p
  | none => if demand.mapped then none else some Position.first

/-- The parts of a stored document, if it has them. -/
def Outline.ofStored? (demand : Demand) (n : Stored) : Option Outline :=
  match n with
  | .fragment children span => do
    let script ← match n.script? with
      | some (code, span) => (scriptPart? demand code span).map some
      | none => some none
    let start ← startPart? demand span
    let hydrated ← (Stored.anyHydrated (Stored.walkAll children)).toOption
    some ⟨script, n.template.toDatum false, start, hydrated⟩
  | _ => none

end Synthesis
end Atoll
