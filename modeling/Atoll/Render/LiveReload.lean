import Atoll.Datum

/-!
# Live reload

Each load of a page under a file name gives it the next version.  Listeners are told when a page is
given up.
-/

set_option autoImplicit false

namespace Atoll
namespace Render

/-- The version of a loaded page and those who listen to it. -/
structure Watched (α : Type) where
  version : Nat
  listeners : List α
  deriving Repr, Inhabited

/-- The loaded pages by their file names. -/
abbrev Registry (α : Type) := List (String × Watched α)

namespace Registry

variable {α : Type}

/-- Notes a load: the first one has version zero. -/
def register (r : Registry α) (filename : String) : Registry α :=
  match r.lookup filename with
  | none => setEntry filename ⟨0, []⟩ r
  | some w => setEntry filename { w with version := w.version + 1 } r

/-- Adds a listener to a loaded page. -/
def accept (r : Registry α) (filename : String) (listener : α) : Registry α :=
  match r.lookup filename with
  | none => r
  | some w => setEntry filename { w with listeners := w.listeners ++ [listener] } r

/-- Gives up a loaded page: its version goes up, and its listeners are to be told. -/
def invalidate (r : Registry α) (filename : String) : Registry α × List α :=
  match r.lookup filename with
  | none => (r, [])
  | some w => (setEntry filename { w with version := w.version + 1 } r, w.listeners)

end Registry

end Render
end Atoll
