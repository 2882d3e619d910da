import Atoll.Path
import Atoll.Text.Case

/-!
# Component references

A component is known by the name it is used under, the path it comes from, and the kind of renderer
that the ending of the path asks for.
-/

set_option autoImplicit false

namespace Atoll

/-- A component under a name. -/
structure ComponentRef where
  name : String
  path : String
  kind : String
  deriving DecidableEq, Repr, Inhabited

namespace ComponentRef

/-- The kind of components in the template format itself. -/
def templateKind : String :=
  "islet"

/-- The kinds of renderers by the ending of a path. -/
def kinds : List (String × String) :=
  [(".jsx", "react"), (".tsx", "react"), (".vue", "vue"), (".svelte", "svelte"),
    (".islet", templateKind)]

/-- The kind that the ending of a path asks for, in any case of letters. -/
def kindOfEnding? (path : String) : Option String :=
  kinds.lookup (Text.lower (Path.ofText path).ending)

/-- The kind of the component at a path. -/
def kindOf (path : String) : String :=
  (kindOfEnding? path).getD templateKind

end ComponentRef
end Atoll
