import Atoll.Build.Indent
import Atoll.Markup.Escape
import Atoll.Script.Placeholder

/-!
# Markup pieces of a document

A document is written as a list of pieces in document order.  A fault in an expression ends the
list; the pieces before it have been written.
-/

set_option autoImplicit false

namespace Atoll
namespace Build

open Atoll.Expr (Fault)
open Markup
open Script (Scope)

/-- How markup is built.  `context` names values for expressions, on top of which the script binds
its own. -/
structure Options where
  pretty : Bool
  indent : Indent
  escape : Bool
  evaluate : Bool
  chunkSize : Int
  context : Bindings
  deriving Repr, Inhabited

/-- The options that hold unless something else is asked for. -/
def Options.default : Options :=
  ⟨false, .text Indent.standard, true, false, 8192, []⟩

/-- The least length of a chunk, which is at least one character. -/
def Options.chunkLength (o : Options) : Nat :=
  (max o.chunkSize 1).toNat

/-- The fault in options that ask for pretty output without a usable indent. -/
def Options.fault? (o : Options) : Option Fault :=
  if o.pretty && !o.indent.isUsable then some (.trouble .notText) else none

/-- Pieces of output, and the fault that ended them. -/
structure Emission (α : Type) where
  pieces : List α
  fault : Option Fault
  deriving Repr, Inhabited

namespace Emission

variable {α : Type}

/-- No pieces. -/
def nothing : Emission α :=
  ⟨[], none⟩

/-- One piece. -/
def piece (a : α) : Emission α :=
  ⟨[a], none⟩

/-- One piece, or the fault in its place. -/
def ofExcept : Except Fault α → Emission α
  | .ok a => piece a
  | .error fault => ⟨[], some fault⟩

/-- One emission behind another; nothing comes behind a fault. -/
def append (a b : Emission α) : Emission α :=
  match a.fault with
  | some _ => a
  | none => ⟨a.pieces ++ b.pieces, b.fault⟩

instance : Append (Emission α) := ⟨append⟩

/-- All pieces as one text. -/
def toText (e : Emission String) : Except Fault String :=
  match e.fault with
  | some fault => .error fault
  | none => .ok (String.join e.pieces)

end Emission

/-- A text on a line of its own when output is pretty: trimmed, and nothing if it is blank. -/
def block (text indent : String) (pretty : Bool) : String :=
  if !pretty then text
  else if Text.allBlank text.toList then ""
  else indent ++ Text.strip text ++ "\n"

/-- The newline behind a piece when output is pretty. -/
def lineEnd (pretty : Bool) : String :=
  if pretty then "\n" else ""

section

variable (o : Options) (scope : Scope)

/-- The indent at a depth. -/
def indentAt (depth : Nat) (pretty : Bool) : String :=
  if pretty then o.indent.levels depth else ""

/-- A text node. -/
def textPiece (value indent : String) (pretty raw : Bool) : String :=
  block (if o.escape && !raw then escapeText value else value) indent pretty

/-- A placeholder: its value, or a comment with its code when nothing is evaluated. -/
def expressionPiece (code indent : String) (pretty : Bool) : Except Fault String :=
  if !o.evaluate then .ok (indent ++ "<!-- Expression: " ++ code ++ " -->" ++ lineEnd pretty)
  else do
    let text ← scope.textOf code
    .ok (block (if o.escape then escapeHtml text else text) indent pretty)

/-- A component that is not rendered. -/
def componentComment (tag : String) : String :=
  "<!-- Component: " ++ tag ++ " -->"

/-- The value of an attribute, evaluated where that is asked for. -/
def attrValue (a : Attr) : Except Fault AttrValue :=
  if a.expression && o.evaluate then scope.attrValueOf a.code else .ok a.value

/-- An attribute with the blank in front of it. -/
def attrText (name : String) : AttrValue → String
  | .flag false => ""
  | .flag true => " " ++ name
  | .text s => " " ++ name ++ "=\"" ++ escapeAttr s ++ "\""

/-- The attributes of a tag. -/
def attrsText : List Attr → Except Fault String
  | [] => .ok ""
  | a :: rest => do
    let value ← attrValue o scope a
    .ok (attrText a.name value ++ (← attrsText rest))

mutual

/-- The pieces of a node. -/
def emit (depth : Nat) (pretty raw : Bool) : Node → Emission String
  | .fragment children _ => emitAll depth pretty raw children
  | .frontmatter _ _ => .nothing
  | .text value _ => .piece (textPiece o value (indentAt o depth pretty) pretty raw)
  | .expression code _ _ =>
    .ofExcept (expressionPiece o scope code (indentAt o depth pretty) pretty)
  | .raw value _ => .piece (block value (indentAt o depth pretty) pretty)
  | .component tag _ _ _ _ =>
    .piece (indentAt o depth pretty ++ componentComment tag ++ lineEnd pretty)
  | .element tag attrs children selfClosing _ =>
    let tag := Text.lower tag
    let indent := indentAt o depth pretty
    let newline := lineEnd pretty
    match attrsText o scope attrs with
    | .error fault => ⟨[], some fault⟩
    | .ok attrs =>
      let opening := indent ++ "<" ++ tag ++ attrs
      let closing := "</" ++ tag ++ ">"
      if isVoidElement tag then .piece (opening ++ ">" ++ newline)
      else if selfClosing then .piece (opening ++ " />" ++ newline)
      else if children.isEmpty then .piece (opening ++ ">" ++ closing ++ newline)
      else if pretty && children.all Node.isInline then
        .ofExcept ((emitAll 0 false (isRawTextElement tag) children).toText.map fun body =>
          opening ++ ">" ++ body ++ closing ++ newline)
      else
        .piece (opening ++ ">" ++ newline)
          ++ emitAll (depth + 1) pretty (isRawTextElement tag) children
          ++ .piece (indent ++ closing ++ newline)

/-- The pieces of nodes one behind the other. -/
def emitAll (depth : Nat) (pretty raw : Bool) : List Node → Emission String
  | [] => .nothing
  | n :: ns => emit depth pretty raw n ++ emitAll depth pretty raw ns

end

end

/-- The names that the expressions of a document can use. -/
def namesFor (f : Fragment) (o : Options) : Except Fault Bindings :=
  if !o.evaluate then .ok []
  else
    match f.frontmatter? with
    | some (code, _) => Script.bindingsOf code o.context
    | none => .ok o.context

/-- The pieces of a document. -/
def emission (f : Fragment) (o : Options) : Emission String :=
  match namesFor f o, o.fault? with
  | .error fault, _ => ⟨[], some fault⟩
  | .ok _, some fault => ⟨[], some fault⟩
  | .ok names, none => emit o (.ofNames names) 0 o.pretty false f.toNode

end Build
end Atoll
