import Atoll.Render.Page

/-!
# Sites

A site knows the components at some paths: sources of pages, and components of other kinds by what
they render to.  Its resolver keeps a log of what was looked up and rendered.
-/

set_option autoImplicit false

namespace Atoll
namespace Render

/-- What stands at a path. -/
inductive Entry where
  /-- The source of a page. -/
  | page (source : String)
  /-- A component with fixed markup. -/
  | markup (html : String)
  /-- A component that fails with a message. -/
  | failing (message : String)
  deriving Repr, Inhabited

/-- What happened at a site. -/
inductive Event where
  | resolved (ref : ComponentRef)
  | rendered (path : String) (props : Entries) (slots : List (String × String))
  deriving Repr

/-- The components of a site by their paths. -/
structure Site where
  entries : List (String × Entry)
  deriving Repr, Inhabited

/-- The events so far, the last one first. -/
abbrev Log := List Event

/-- Notes an event. -/
def note (e : Event) : RenderM Log Unit :=
  modify fun s => { s with host := e :: s.host }

namespace Site

/-- How deeply the pages of a site may use each other. -/
def maxDepth : Nat :=
  100

/-- The component that an entry is; pages find their own components with `resolve`. -/
def renderable (resolve : Resolver Log) : Entry → Renderable Log
  | .page source => (Page.ofSource source false).render (some resolve)
  | .markup html => fun _ => return html
  | .failing message => fun _ => throw (.component message)

/-- The resolver of a site for pages that use each other at most so deeply. -/
def resolver (s : Site) : Nat → Resolver Log
  | 0 => fun _ => throw (.fault .tooDeep)
  | depth + 1 => fun ref => do
    note (.resolved ref)
    match s.entries.lookup ref.path with
    | none => return none
    | some entry =>
      return some fun request => do
        note (.rendered ref.path request.props request.slots)
        renderable (s.resolver depth) entry request

end Site

end Render
end Atoll
