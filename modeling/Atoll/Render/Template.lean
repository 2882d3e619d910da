import Atoll.Build.Stream
import Atoll.Component
import Atoll.Render.Island
import Atoll.Script.Placeholder

/-!
# Rendering a template

Rendering puts values in the place of placeholders, given content in the place of slots, and the
markup of components in the place of their tags.  What is left is a tree of elements, text and raw
markup.

A component is found by a resolver of the host, which may keep a state of its own; that state and
the number of islands so far survive a failure.
-/

set_option autoImplicit false

namespace Atoll
namespace Render

open Atoll.Expr (Fault)
open Markup
open Script (Scope)

/-! ## The host -/

/-- Why nothing is rendered: a fault in an expression, or a component of the host that fails. -/
inductive Error where
  | fault (f : Fault)
  | component (message : String)
  deriving Repr

/-- The number of islands so far, and the state of the host. -/
structure State (σ : Type) where
  islands : Nat
  host : σ
  deriving Repr

/-- Rendering with a state that survives failures. -/
abbrev RenderM (σ : Type) := ExceptT Error (StateM (State σ))

/-- A result of evaluation. -/
def liftFault {σ α : Type} (r : Except Fault α) : RenderM σ α :=
  match r with
  | .ok a => pure a
  | .error f => throw (.fault f)

/-- What a component is asked to render: its properties and slots, inside the scopes of the pages
around it. -/
structure Request where
  outer : List Bindings
  props : Entries
  slots : List (String × String)
  deriving Repr, Inhabited

/-- A component that renders itself to markup. -/
abbrev Renderable (σ : Type) := Request → RenderM σ String

/-- Finds components. -/
abbrev Resolver (σ : Type) := ComponentRef → RenderM σ (Option (Renderable σ))

/-- What a template is rendered with. -/
structure Renderer (σ : Type) where
  scope : Scope
  components : List (String × ComponentRef)
  resolve : Option (Resolver σ)
  slots : List (String × String)

/-! ## Parts of a template -/

/-- The slot that unnamed content goes to. -/
def defaultSlot : String :=
  "default"

/-- The element that slots are written as. -/
def slotTag : String :=
  "slot"

/-- The name of a slot: the first text under `name`. -/
def slotName (attrs : List Attr) : String :=
  let given := attrs.findSome? fun a =>
    match a.value with
    | .text s => if a.name == "name" then some s else none
    | .flag _ => none
  given.getD defaultSlot

/-- An attribute with its value in the place of an expression. -/
def renderAttr (scope : Scope) (a : Attr) : Except Fault Attr :=
  if a.expression then do
    .ok { a with value := ← scope.attrValueOf a.code, expression := false }
  else .ok a

/-- The value of a property: that of an expression, null if there is none, or the text or flag of
any other attribute. -/
def propValue (scope : Scope) (i : Nat) (a : Attr) : Except Fault Value :=
  if a.expression then do
    match ← scope.valueOf [i, 2, scope.level] a.code with
    | .undefined => .ok .null
    | v => .ok v
  else
    match a.value with
    | .text s => .ok (.string s)
    | .flag b => .ok (.bool b)

/-- The properties of a component: all attributes that are not directives; `i` is the place of the
first one. -/
def propsOf (scope : Scope) (i : Nat) (done : Entries) : List Attr → Except Fault Entries
  | [] => .ok done
  | a :: rest =>
    if a.directive.isSome then propsOf scope (i + 1) done rest
    else do
      let v ← propValue scope i a
      propsOf scope (i + 1) (Entries.set (.string a.name) v done) rest

/-- The markup of a tree with nothing left to substitute. -/
def serialize (f : Fragment) (pretty : Bool) : Except Fault String :=
  Build.markup f { Build.Options.default with pretty := pretty }

/-- The markup of a component that the host finds, or nothing. -/
def renderComponent {σ : Type} (r : Renderer σ) (tag : String) (props : Entries)
    (content : String) : RenderM σ (Option String) := do
  match r.components.lookup tag, r.resolve with
  | some ref, some resolve =>
    match ← resolve ref with
    | some component =>
      let slots := if content.isEmpty then [] else [(defaultSlot, content)]
      return some (← component ⟨r.scope.outer ++ [r.scope.bindings], props, slots⟩)
    | none => return none
  | _, _ => return none

/-- The markup of a component inside an island with the next number. -/
def newIsland {σ : Type} (name : String) (props : Entries) (directive : String)
    (value : Option String) (inner : String) : RenderM σ String := do
  let s ← get
  set { s with islands := s.islands + 1 }
  liftFault (Island.markup? ⟨Island.uidOf (s.islands + 1), name, props, directive, value, inner⟩)

/-- The markup in the place of a component: an island if it has a directive, its own markup, or a
comment if it has none. -/
def componentMarkup {σ : Type} (r : Renderer σ) (tag : String) (attrs : List Attr)
    (props : Entries) (content : String) : RenderM σ String := do
  let inner ← renderComponent r tag props content
  match attrs.find? (·.directive.isSome) with
  | some a =>
    let value := match a.value with
      | .text s => some s
      | .flag _ => none
    newIsland tag props (a.directive.getD "") value (inner.getD "")
  | none => return inner.getD (Build.componentComment tag)

/-! ## Rendering -/

mutual

/-- What stands in the place of a node; a script leaves nothing. -/
def renderNode {σ : Type} (r : Renderer σ) : Node → RenderM σ (Option Node)
  | .fragment children span => do
    return some (.fragment (← renderNodes r children) span)
  | .frontmatter _ _ => return none
  | .text value span => return some (.text value span)
  | .raw value span => return some (.raw value span)
  | .expression code span _ => do
    let text ← liftFault (r.scope.textOf code)
    return some (.raw (escapeHtml text) span)
  | .element tag attrs children selfClosing span => do
    if Text.lower tag == slotTag then
      match r.slots.lookup (slotName attrs) with
      | some content => return some (.raw content span)
      | none => return some (.fragment (← renderNodes r children) span)
    else
      let attrs ← liftFault (attrs.mapM (renderAttr r.scope))
      return some (.element tag attrs (← renderNodes r children) selfClosing span)
  | .component tag attrs children _ span => do
    let props ← liftFault (propsOf r.scope 0 [] attrs)
    let children ← renderNodes r children
    let content ← liftFault (serialize ⟨children, span⟩ false)
    return some (.raw (← componentMarkup r tag attrs props content) span)

/-- What stands in the place of nodes. -/
def renderNodes {σ : Type} (r : Renderer σ) : List Node → RenderM σ (List Node)
  | [] => return []
  | n :: ns => do
    let here ← renderNode r n
    return here.toList ++ (← renderNodes r ns)

end

/-- A template with everything substituted. -/
def renderTemplate {σ : Type} (r : Renderer σ) (template : Fragment) : RenderM σ Fragment := do
  return ⟨← renderNodes r template.children, template.span⟩

end Render
end Atoll
