import Atoll.SourceMap
import Atoll.Text.Quoted

/-!
# Generated code

Code is put together as statements, some with the place in the source that they come from, and laid
out in lines once it is complete.
-/

set_option autoImplicit false

namespace Atoll
namespace Code

/-- A statement. -/
inductive Stmt where
  | line (text : String) (origin : Option Position)
  | comment (text : String)
  | blank
  /-- A header, an indented body, and a closing line for some. -/
  | block (header : String) (body : List Stmt) (footer : Option String) (origin : Option Position)
  deriving Repr, Inhabited

/-- Statements under a line that describes them. -/
structure Module where
  body : List Stmt
  description : Option String
  deriving Repr, Inhabited

/-- A call with positional and named arguments, which are code already. -/
def call (function : String) (args : List String) (named : List (String × String)) : String :=
  let named := named.map fun (k, v) => k ++ "=" ++ v
  function ++ "(" ++ ", ".intercalate (args ++ named) ++ ")"

/-- A line without an origin. -/
def plainLine (text : String) : GeneratedLine :=
  ⟨text, none, 0⟩

/-- A text with an indent in front of each of its lines but the empty ones behind the first.  The
origin belongs to the first line. -/
def indented (indent text : String) (origin : Option Position) : List GeneratedLine :=
  match (Text.lines text.toList).map String.ofList with
  | [] => []
  | first :: rest =>
    ⟨indent ++ first, origin, indent.length⟩
      :: rest.map fun line => plainLine (if line.isEmpty then "" else indent ++ line)

mutual

/-- The lines of a statement. -/
def layoutStmt (unit : String) (level : Nat) : Stmt → List GeneratedLine
  | .line text origin => indented (Text.times level unit) text origin
  | .comment text => [plainLine (Text.times level unit ++ "# " ++ text)]
  | .blank => [plainLine ""]
  | .block header body footer origin =>
    let indent := Text.times level unit
    let body := if body.isEmpty && footer.isNone then [plainLine (indent ++ unit ++ "pass")]
      else layoutStmts unit (level + 1) body
    indented indent header origin ++ body
      ++ (footer.map fun text => plainLine (indent ++ text)).toList

/-- The lines of statements one behind the other. -/
def layoutStmts (unit : String) (level : Nat) : List Stmt → List GeneratedLine
  | [] => []
  | s :: ss => layoutStmt unit level s ++ layoutStmts unit level ss

end

/-- A description as the first line of a module. -/
def describe (text : String) : String :=
  let s := text.toList
  if Text.occursIn "\"\"\"".toList s || s.contains '\\' || s.getLast? == some '"'
      || s.contains '\n' then
    Text.quoted text
  else "\"\"\"" ++ text ++ "\"\"\""

/-- The lines of a module; `unit` is one level of indentation. -/
def layout (m : Module) (unit : String) : List GeneratedLine :=
  let head := match m.description with
    | some text => [plainLine (describe text), plainLine ""]
    | none => []
  head ++ layoutStmts unit 0 m.body

/-- Writes a module. -/
def render {σ : Type} (writer : SourceMap.Writer σ) (m : Module) (unit : String) : σ :=
  (layout m unit).foldl writer.writeLine writer.start

/-- The indentation that modules have. -/
def standardUnit : String :=
  "    "

end Code
end Atoll
