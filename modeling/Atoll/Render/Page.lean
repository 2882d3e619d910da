import Atoll.Render.Context
import Atoll.Render.Template

/-!
# Pages

A page is a document ready to be rendered: the statements of its script, its components and its
template.
-/

set_option autoImplicit false

namespace Atoll
namespace Render

open Atoll.Expr (Fault)
open Markup
open Script (Scope)

/-- A document ready to be rendered. -/
structure Page where
  imports : List String
  statements : List String
  components : List (String × ComponentRef)
  template : Fragment
  pretty : Bool
  deriving Repr, Inhabited

namespace Page

/-- The statements of a script that are executed, without types. -/
def executed (parts : Script.Parts) : List String :=
  parts.statements.filterMap Script.plain?

/-- The page of a document. -/
def ofFragment (f : Fragment) (pretty : Bool) : Page :=
  let parts := match f.frontmatter? with
    | some (code, _) => Script.parts code
    | none => ⟨[], [], []⟩
  ⟨parts.imports, executed parts, setEntries [] (parts.components.map fun c => (c.name, c)),
    f.template, pretty⟩

/-- The page of a source text. -/
def ofSource (source : String) (pretty : Bool) : Page :=
  ofFragment (Markup.parse source).tree pretty

/-- The scope that a page's script leaves. -/
def scope (p : Page) (context : Context) (outer : List Bindings) : Except Fault Scope :=
  (context.scope outer).executeAll p.statements

/-- The markup of a page. -/
def render {σ : Type} (p : Page) (resolve : Option (Resolver σ)) : Renderable σ := fun request => do
  let context ← liftFault (Context.ofProps request.props request.slots)
  let scope ← liftFault (p.scope context request.outer)
  let tree ← renderTemplate ⟨scope, p.components, resolve, context.slots⟩ p.template
  liftFault (serialize tree p.pretty)

end Page

end Render
end Atoll
