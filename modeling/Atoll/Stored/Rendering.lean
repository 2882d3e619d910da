import Atoll.Render.Template
import Atoll.Stored.Emission

/-!
# Rendering stored templates

A stored template whose fields are of the right kind is rendered like the template that it is.  In
any other one a field is looked at only where it is needed.
-/

set_option autoImplicit false

namespace Atoll
namespace Stored

open Atoll.Expr (Fault)
open Markup
open Render (RenderM Renderer liftFault)
open Script (Scope)

/-- Ends with trouble. -/
def stop {σ α : Type} (trouble : Trouble) : RenderM σ α :=
  throw (.fault (.trouble trouble))

/-- The name of a slot: the first text under `name`. -/
def slotName : List Stored → Except Fault String
  | [] => .ok Render.defaultSlot
  | .attr (.string "name") (.string s) _ _ _ :: _ => .ok s
  | .attr _ _ _ _ _ :: rest => slotName rest
  | _ :: _ => .error (.trouble .noPart)

/-- An attribute with its value in the place of an expression. -/
def renderAttr (scope : Scope) : Stored → Except Fault Stored
  | .attr name value span directive braces =>
    if isSet braces then do
      let value ← scope.attrValueOf (braceCode value braces)
      .ok (.attr name (ofAttrValue value) span directive (.bool false))
    else .ok (.attr name value span directive braces)
  | _ => .error (.trouble .noPart)

/-- The key under which a property goes.  Lists and objects cannot be keys. -/
def propKey : Datum → Except Fault Value
  | .array _ => .error (.trouble .notText)
  | .object _ => .error (.trouble .notText)
  | d => .ok (.ofDatum [] d)

/-- The value of a property; `i` is the place of its attribute. -/
def propValue (scope : Scope) (i : Nat) (value braces : Datum) : Except Fault Value :=
  let label := [i, 2, scope.level]
  if isSet braces then do
    match ← scope.valueOf label (braceCode value braces) with
    | .undefined => .ok .null
    | v => .ok v
  else .ok (.ofDatum label value)

/-- The properties of a component: all attributes that are not directives; `i` is the place of the
first one. -/
def propsOf (scope : Scope) (i : Nat) (done : Entries) : List Stored → Except Fault Entries
  | [] => .ok done
  | .attr name value _ .null braces :: rest => do
    let v ← propValue scope i value braces
    propsOf scope (i + 1) (Entries.set (← propKey name) v done) rest
  | .attr _ _ _ _ _ :: rest => propsOf scope (i + 1) done rest
  | _ :: _ => .error (.trouble .noPart)

/-- The markup of a component that the host finds, or nothing.  A tag that is no text finds
nothing, and lists and objects cannot even be looked up. -/
def renderComponent {σ : Type} (r : Renderer σ) (tag : Datum) (props : Entries)
    (content : String) : RenderM σ (Option String) :=
  match tag with
  | .string tag => Render.renderComponent r tag props content
  | .array _ => stop .notText
  | .object _ => stop .notText
  | _ => return none

/-- The markup in the place of a component: an island if it has a directive, its own markup, or a
comment if it has none.  The name and the directive of an island are texts. -/
def componentMarkup {σ : Type} (r : Renderer σ) (tag : Datum) (attrs : List Stored)
    (props : Entries) (content : String) : RenderM σ String := do
  let inner ← renderComponent r tag props content
  match ← liftFault ((directiveAmong attrs).mapError .trouble) with
  | some (.attr _ value _ directive _) =>
    match tag, directive with
    | .string tag, .string directive =>
      Render.newIsland tag props directive (text? value) (inner.getD "")
    | _, _ => stop .notText
  | _ => return inner.getD (Build.componentComment tag.shown)

/-- The markup of a stored tree with nothing left to substitute. -/
def serialize (n : Stored) (pretty : Bool) : Except Fault String :=
  n.markup { Build.Options.default with pretty := pretty }

mutual

/-- What stands in the place of a stored node; a script leaves nothing. -/
def renderNode {σ : Type} (r : Renderer σ) : Stored → RenderM σ (Option Stored)
  | .fragment children span => do
    return some (.fragment (← renderNodes r children) span)
  | .frontmatter _ _ => return none
  | .text value span => return some (.text value span)
  | .rawHTML value span => return some (.rawHTML value span)
  | .attr _ _ _ _ _ => stop .strayAttr
  | .expression code span _ => do
    match code with
    | .string code =>
      let text ← liftFault (r.scope.textOf code)
      return some (.rawHTML (.string (escapeHtml text)) span)
    | _ => stop .notText
  | .tagged false tag attrs children selfClosing span => do
    if (← liftFault (tagText tag)) == Render.slotTag then
      match r.slots.lookup (← liftFault (slotName attrs)) with
      | some content => return some (.rawHTML (.string content) span)
      | none => return some (.fragment (← renderNodes r children) span)
    else
      let attrs ← liftFault (attrs.mapM (renderAttr r.scope))
      return some (.tagged false tag attrs (← renderNodes r children) selfClosing span)
  | .tagged true tag attrs children _ span => do
    let props ← liftFault (propsOf r.scope 0 [] attrs)
    let children ← renderNodes r children
    let content ← liftFault (serialize (.fragment children span) false)
    return some (.rawHTML (.string (← componentMarkup r tag attrs props content)) span)

/-- What stands in the place of stored nodes. -/
def renderNodes {σ : Type} (r : Renderer σ) : List Stored → RenderM σ (List Stored)
  | [] => return []
  | n :: ns => do
    let here ← renderNode r n
    return here.toList ++ (← renderNodes r ns)

end

/-- A stored template with everything substituted. -/
def render {σ : Type} (r : Renderer σ) (n : Stored) : RenderM σ Stored :=
  match n.toFragment? with
  | some template => do return ofFragment (← Render.renderTemplate r template)
  | none =>
    match n with
    | .fragment children span => do return .fragment (← renderNodes r children) span
    | _ => stop .noPart

end Stored
end Atoll
