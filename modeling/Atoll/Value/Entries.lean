import Atoll.Value.Operator

/-!
# Entries of objects

An object keeps its entries in the order in which their keys were set first.  Expressions set and
read entries under texts only.  A host can pass entries under other keys, which expressions see when
they list the keys of an object.
-/

set_option autoImplicit false

namespace Atoll
namespace Entries

/-- A key as it is compared with others: true and false are the same keys as one and zero. -/
def comparedKey : Value → Value
  | .bool b => .ofInt (if b then 1 else 0)
  | key => key

/-- Whether two values are the same key. -/
def sameKey (a b : Value) : Bool :=
  (comparedKey a).strictEq (comparedKey b)

/-- Whether a key is a text. -/
def isText (text : String) : Value → Bool
  | .string s => s == text
  | _ => false

/-- The value under a text. -/
def get? (entries : Entries) (text : String) : Option Value :=
  (entries.find? fun (key, _) => isText text key).map (·.2)

/-- The entries with a value under a key.  A key that is there keeps its place and its spelling. -/
def set (key value : Value) : Entries → Entries
  | [] => [(key, value)]
  | (k, v) :: rest => if sameKey k key then (k, value) :: rest else (k, v) :: set key value rest

/-- Sets all entries of the second list, from left to right. -/
def setAll (entries new : Entries) : Entries :=
  new.foldl (fun acc (key, value) => set key value acc) entries

/-- The entries without those under some texts. -/
def without (texts : List String) (entries : Entries) : Entries :=
  entries.filter fun (key, _) => !texts.any fun text => isText text key

/-- Names with their values as entries. -/
def ofBindings (names : Bindings) : Entries :=
  names.map fun (name, value) => (.string name, value)

end Entries
end Atoll
