import Atoll.Datum.Json
import Atoll.Markup.Escape
import Atoll.Value.Convert

/-!
# Islands

An island is the markup of a component inside an element that says how to hydrate it: the name of
the component, its properties as JSON, and the directive with its value.
-/

set_option autoImplicit false

namespace Atoll
namespace Render

open Atoll.Expr (Fault)
open Markup

/-- A component to be hydrated. -/
structure Island where
  uid : String
  name : String
  props : Entries
  directive : String
  value : Option String
  inner : String
  deriving Repr, Inhabited

namespace Island

/-- The element around an island. -/
def tag : String :=
  "islet-island"

/-- The identifier of the island with a number: the number with 32 hexadecimal digits. -/
def uidOf (n : Nat) : String :=
  String.ofList (Text.hexPadded 32 n)

/-- The properties as JSON. -/
def propsJson (props : Entries) : String :=
  Json.write .compact (Value.object [] props).toDatum

/-- An attribute between double quotes. -/
def quotedAttr (name value : String) : String :=
  name ++ "=\"" ++ escapeAttr value ++ "\""

/-- The attributes of an island.  Its properties stand between single quotes. -/
def attrs (i : Island) : List String :=
  [quotedAttr "uid" i.uid, quotedAttr "component-export" i.name,
    "component-props='" ++ escapeBetween '\'' (propsJson i.props) ++ "'",
    quotedAttr "client-directive" i.directive]
    ++ (i.value.map (quotedAttr "directive-value")).toList

/-- The markup of an island. -/
def markup (i : Island) : String :=
  "<" ++ tag ++ " " ++ " ".intercalate i.attrs ++ ">" ++ i.inner ++ "</" ++ tag ++ ">"

/-- The markup of an island, if the keys of its properties can be written. -/
def markup? (i : Island) : Except Fault String :=
  if (Value.object [] i.props).hasLongKey then .error (.trouble .longInteger) else .ok i.markup

end Island

end Render
end Atoll
