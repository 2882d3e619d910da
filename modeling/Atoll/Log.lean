import Atoll.Build.Emission

/-!
# Notes on what was passed over

A build goes on where a statement has no effect or an expression has no value.  What it passed over
can be listed: `notesOf` gives the notes of a build in the order in which it meets them, up to the
fault that ends it.
-/

set_option autoImplicit false

namespace Atoll
namespace Log

open Build (Options)
open Atoll.Expr (Fault Failure)
open Markup
open Script (Scope)

/-- The channel for a name: every channel belongs to the one of the whole program. -/
def channel (name : String) : String :=
  if name == "islet" || "islet.".isPrefixOf name then name else "islet." ++ name

/-- Something that was passed over. -/
inductive Note where
  /-- A statement that declares nothing. -/
  | ignored (statement : String)
  /-- A declarator that bound nothing. -/
  | unbound (pattern : String) (failure : Failure)
  /-- An expression without a value. -/
  | valueless (failure : Failure)
  /-- A value that cannot be shown. -/
  | unshown (failure : Failure)
  /-- The loop that writes a stream has been set up. -/
  | streaming
  deriving Repr

namespace Note

/-- A line of the log on a channel. -/
def onChannel (channel message : String) : String :=
  "DEBUG " ++ channel ++ ": " ++ message

/-- A note as a line of the log. -/
def line : Note → String
  | .ignored s => onChannel (channel "frontmatter") ("ignoring frontmatter statement: " ++ s)
  | .unbound p f =>
    onChannel (channel "frontmatter") ("binding " ++ p ++ " left unbound: " ++ f.text)
  | .valueless f => onChannel (channel "markup") ("expression evaluated to nothing: " ++ f.text)
  | .unshown f => onChannel (channel "markup") ("expression value not renderable: " ++ f.text)
  | .streaming => onChannel "asyncio" "Using selector: EpollSelector"

end Note

/-- Notes, and whether a fault has ended the build behind them. -/
structure Notes where
  list : List Note
  ended : Bool
  deriving Repr

namespace Notes

/-- No notes. -/
def nothing : Notes :=
  ⟨[], false⟩

/-- Notes behind other notes; nothing comes behind the end. -/
def append (a b : Notes) : Notes :=
  if a.ended then a else ⟨a.list ++ b.list, b.ended⟩

instance : Append Notes := ⟨append⟩

/-- A note for a reported failure; other faults end the build. -/
def ofFault (note : Failure → Note) : Fault → Notes
  | .failed f => ⟨[note f], false⟩
  | _ => ⟨[], true⟩

/-- A note where a result is a reported failure. -/
def ofResult {α : Type} (note : Failure → Note) : Except Fault α → Notes
  | .ok _ => nothing
  | .error fault => ofFault note fault

end Notes

/-! ## Scripts -/

/-- The note on a statement that is plain text and no declaration. -/
def ignoredNotes (statement : String) : List Note :=
  match Script.plain? statement with
  | some text => if (Script.declaration? text.toList).isSome then [] else [.ignored text]
  | none => []

/-- The notes on statements executed one behind the other. -/
def scriptNotes (scope : Scope) : List String → Notes
  | [] => .nothing
  | statement :: rest =>
    let done := scope.execute statement
    ⟨ignoredNotes statement ++ done.unbound.map fun (p, f) => .unbound p f, done.fault.isSome⟩
      ++ scriptNotes done.scope rest

/-! ## Markup -/

section

variable (scope : Scope)

/-- The notes on an expression: on its value, and on showing the value. -/
def expressionNotes (code : String) : Notes :=
  match scope.evaluate scope.placeholderLabel code with
  | .ok v => .ofResult .unshown v.render
  | .error fault => .ofFault .valueless fault

/-- The notes on an attribute. -/
def attrNotes (a : Attr) : Notes :=
  if !a.expression then .nothing
  else
    match scope.evaluate scope.placeholderLabel a.code with
    | .error fault => .ofFault .valueless fault
    | .ok _ =>
      match scope.attrValueOf a.code with
      | .ok _ => .nothing
      | .error _ => ⟨[], true⟩

/-- The notes on attributes. -/
def attrsNotes : List Attr → Notes
  | [] => .nothing
  | a :: rest => attrNotes scope a ++ attrsNotes rest

mutual

/-- The notes on a node, in the order in which its pieces are written. -/
def nodeNotes : Node → Notes
  | .fragment children _ => nodesNotes children
  | .expression code _ _ => expressionNotes scope code
  | .element tag attrs children selfClosing _ =>
    let closed := isVoidElement (Text.lower tag) || selfClosing
    attrsNotes scope attrs ++ if closed then .nothing else nodesNotes children
  | _ => .nothing

/-- The notes on nodes one behind the other. -/
def nodesNotes : List Node → Notes
  | [] => .nothing
  | n :: ns => nodeNotes n ++ nodesNotes ns

end

end

/-- The notes on building a document.  Nothing is evaluated, and so nothing passed over, unless that
is asked for. -/
def notesOf (f : Fragment) (o : Options) : List Note :=
  if !o.evaluate then []
  else
    let script := match f.frontmatter? with
      | some (code, _) => scriptNotes (.ofNames o.context) (Script.parts code).statements
      | none => .nothing
    match Build.namesFor f o with
    | .error _ => script.list
    | .ok names => (script ++ nodeNotes (.ofNames names) f.toNode).list

end Log
end Atoll
