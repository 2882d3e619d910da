import Atoll.Markup.Node
import Atoll.Script.Scope

/-!
# Values of placeholders

What stands in braces is evaluated in a scope.  An expression that cannot be evaluated counts as
undefined, and a value that cannot be shown shows nothing.
-/

set_option autoImplicit false

namespace Atoll
namespace Script
namespace Scope

open Atoll.Expr (Fault)
open Markup (AttrValue)

/-- A reported failure replaced by a value; other faults stay. -/
def recover {α : Type} (instead : α) : Except Fault α → Except Fault α
  | .ok a => .ok a
  | .error (.failed _) => .ok instead
  | .error fault => .error fault

/-- The label of what a placeholder makes. -/
def placeholderLabel (s : Scope) : Label :=
  [3, s.level]

/-- The value of an expression, undefined if it has none. -/
def valueOf (s : Scope) (label : Label) (code : String) : Except Fault Value :=
  recover .undefined (s.evaluate label code)

/-- What a placeholder shows. -/
def textOf (s : Scope) (code : String) : Except Fault String := do
  let v ← s.valueOf s.placeholderLabel code
  recover "" v.render

/-- The value of an attribute in braces: null, undefined and false leave it out, true makes it
bare. -/
def attrValueOf (s : Scope) (code : String) : Except Fault AttrValue := do
  match ← s.valueOf s.placeholderLabel code with
  | .undefined => .ok (.flag false)
  | .null => .ok (.flag false)
  | .bool b => .ok (.flag b)
  | v => recover (.flag false) (v.toText.map .text)

end Scope
end Script
end Atoll
