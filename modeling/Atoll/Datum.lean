import Atoll.Datum.Moment

/-!
# Plain data

Data without identity or behaviour: what a data file holds, what a stored tree is made of, and what
is written into generated code.  Integers and doubles are kept apart, and the entries of an object
keep their order.
-/

set_option autoImplicit false

namespace Atoll

/-- A piece of plain data. -/
inductive Datum where
  | null
  | bool (b : Bool)
  | int (n : Int)
  | float (x : Float)
  | string (s : String)
  | moment (m : Moment)
  | array (items : List Datum)
  | object (entries : List (String × Datum))
  deriving Repr, Inhabited

namespace Datum

/-- The value under a key of an object. -/
def get? (d : Datum) (key : String) : Option Datum :=
  match d with
  | .object entries => entries.lookup key
  | _ => none

mutual

/-- Whether two pieces of data are the same, with doubles compared as numbers. -/
def beq : Datum → Datum → Bool
  | .null, .null => true
  | .bool a, .bool b => a == b
  | .int a, .int b => a == b
  | .float a, .float b => a == b
  | .string a, .string b => a == b
  | .moment a, .moment b => a == b
  | .array as, .array bs => beqAll as bs
  | .object as, .object bs => beqEntries as bs
  | _, _ => false

/-- `beq` on lists. -/
def beqAll : List Datum → List Datum → Bool
  | [], [] => true
  | a :: as, b :: bs => beq a b && beqAll as bs
  | _, _ => false

/-- `beq` on entries. -/
def beqEntries : List (String × Datum) → List (String × Datum) → Bool
  | [], [] => true
  | (k, a) :: as, (l, b) :: bs => k == l && beq a b && beqEntries as bs
  | _, _ => false

end

instance : BEq Datum := ⟨beq⟩

end Datum

/-- A list of entries with `key` set to `value`: in its old place if the key is there, and else at
the end. -/
def setEntry {α : Type} (key : String) (value : α) : List (String × α) → List (String × α)
  | [] => [(key, value)]
  | (k, v) :: rest => if k == key then (k, value) :: rest else (k, v) :: setEntry key value rest

/-- Sets all entries of the second list, from left to right. -/
def setEntries {α : Type} (entries new : List (String × α)) : List (String × α) :=
  new.foldl (fun acc (k, v) => setEntry k v acc) entries

end Atoll
