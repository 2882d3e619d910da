import Atoll.Script.Scope

/-!
# What a page is rendered with

A page gets properties and slots.  A host may pass the request and its parameters inside the entry
`Astro` of the properties; the page sees them apart from its properties.
-/

set_option autoImplicit false

namespace Atoll
namespace Render

open Atoll.Expr (Fault)
open Script (Scope)

/-- The name under which a page sees everything it is rendered with. -/
def hostName : String :=
  "Astro"

/-- What a page is rendered with. -/
structure Context where
  props : Entries
  request : Entries
  params : Entries
  slots : List (String × String)
  deriving Repr, Inhabited

namespace Context

/-- Whether a value is given at all: nothing, zero and whatever is empty are not. -/
def isGiven : Value → Bool
  | .undefined => false
  | .null => false
  | .bool b => b
  | .number n => !n.isZero
  | .string s => !s.isEmpty
  | .array _ items => !items.isEmpty
  | .object _ entries => !entries.isEmpty
  | _ => true

/-- Whether a value can be a key.  What holds other values cannot: lists, objects, libraries, and
functions with the names around them. -/
def isKey : Value → Bool
  | .array _ _ => false
  | .object _ _ => false
  | .library _ => false
  | .closure _ _ _ _ _ => false
  | _ => true

/-- A value under a key. -/
def entryOf (key value : Value) : Except Fault (Value × Value) :=
  if isKey key then .ok (key, value) else .error (.trouble .notEntries)

/-- The key and value that a value holds: two items, two characters, or the keys of two entries. -/
def pairOf : Value → Except Fault (Value × Value)
  | .array _ items =>
    match items with
    | [k, v] => entryOf k v
    | _ => .error (.trouble .notAPair)
  | .string s =>
    match s.toList with
    | [a, b] => .ok (.string a.toString, .string b.toString)
    | _ => .error (.trouble .notAPair)
  | .object _ entries =>
    match entries with
    | [(a, _), (b, _)] => .ok (a, b)
    | _ => .error (.trouble .notAPair)
  | _ => .error (.trouble .notEntries)

/-- The entries that a host value stands for: those of an object, or pairs in a list. -/
def entriesOf (v : Value) : Except Fault Entries :=
  if !isGiven v then .ok []
  else
    match v with
    | .object _ entries => .ok entries
    | .array _ items => do
      let pairs ← items.mapM pairOf
      .ok (Entries.setAll [] pairs)
    | .string _ => .error (.trouble .notAPair)
    | _ => .error (.trouble .notEntries)

/-- The entries that a value has to have: what is not given has none only if it is empty. -/
def requiredEntries (v : Value) : Except Fault Entries :=
  match v with
  | .string _ => entriesOf v
  | .array _ _ => entriesOf v
  | .object _ entries => .ok entries
  | _ => .error (.trouble .notEntries)

/-- The context from properties and slots. -/
def ofProps (props : Entries) (slots : List (String × String)) : Except Fault Context := do
  let host := match Entries.get? props hostName with
    | some (.object _ entries) => entries
    | _ => []
  let request ← entriesOf ((Entries.get? host "request").getD .null)
  let params ← entriesOf ((Entries.get? host "params").getD .null)
  .ok ⟨Entries.without [hostName] props, request, params, setEntries [] slots⟩

/-- The names that the script of a page starts with.  What is made for them is labelled by the level
of the page. -/
def names (c : Context) (level : Nat) : Bindings :=
  let props := .object [0, 4, level] c.props
  let request := .object [1, 4, level] c.request
  let params := .object [2, 4, level] c.params
  let slots := .object [3, 4, level] (c.slots.map fun (name, _) => (.string name, .bool true))
  let host := .object [4, 4, level]
    (Entries.ofBindings
      [("props", props), ("request", request), ("params", params), ("slots", slots)])
  [(hostName, host), ("props", props), ("request", request), ("params", params)]

/-- The scope in which the script of a page starts, inside the scopes of the pages around it. -/
def scope (c : Context) (outer : List Bindings) : Scope :=
  ⟨outer, c.names outer.length, 0⟩

end Context

end Render
end Atoll
