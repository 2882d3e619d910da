import Atoll.Datum.Literal
import Atoll.Expr.Fault
import Atoll.Value

/-!
# Conversions between kinds of values

To truth values, text and numbers, to the text of a placeholder, and to plain data and back.
-/

set_option autoImplicit false

namespace Atoll
namespace Value

open Atoll.Expr (Fault)

/-- Trouble with a number as a fault. -/
def liftNumber {α : Type} (r : Except Trouble α) : Except Fault α :=
  r.mapError .trouble

/-- Whether a value counts as true: all but null, undefined, false, zero, not a number and the empty
text.  An integer beyond the range of doubles cannot be asked. -/
def truthy : Value → Except Fault Bool
  | .undefined => .ok false
  | .null => .ok false
  | .bool b => .ok b
  | .number n => if n.isZero then .ok false else (liftNumber n.isNaN).map (!·)
  | .string s => .ok (!s.isEmpty)
  | _ => .ok true

/-! ## Text -/

/-- The text of a number. -/
def numberText (n : Number) : Except Fault String :=
  match n.text? with
  | some s => .ok s
  | none => .error (.because .numberTooLarge)

mutual

/-- A value as text.  A list is its items with commas between them. -/
def toText : Value → Except Fault String
  | .undefined => .ok "undefined"
  | .null => .ok "null"
  | .bool b => .ok (if b then "true" else "false")
  | .number n => numberText n
  | .string s => .ok s
  | .array _ items => (itemTexts items).map (",".intercalate ·)
  | .object _ _ => .ok "[object Object]"
  | .builtin _ => .ok "function"
  | .method _ _ _ => .ok "function"
  | .closure _ _ _ _ _ => .ok "function"
  | .library _ => .error (.because (.noText "Namespace"))
  | .foreign _ kind => .error (.because (.noText kind))

/-- The texts of items; null and undefined have empty ones. -/
def itemTexts : List Value → Except Fault (List String)
  | [] => .ok []
  | v :: vs => do
    let s ← if v.isNothing then .ok "" else toText v
    .ok (s :: (← itemTexts vs))

end

mutual

/-- What a placeholder with this value shows: nothing for null, undefined and truth values, the
items of a list one behind the other, and else the text. -/
def render : Value → Except Fault String
  | .undefined => .ok ""
  | .null => .ok ""
  | .bool _ => .ok ""
  | .array _ items => renderAll items
  | v => v.toText

/-- What values show one behind the other. -/
def renderAll : List Value → Except Fault String
  | [] => .ok ""
  | v :: vs => do
    let s ← render v
    .ok (s ++ (← renderAll vs))

end

/-! ## Numbers -/

/-- A value as a number. -/
def toNumber : Value → Except Fault Number
  | .bool b => .ok (.int (if b then 1 else 0))
  | .number n => .ok n
  | .null => .ok (.int 0)
  | .string s => .ok (.ofText s)
  | .array label items => (toText (.array label items)).map .ofText
  | _ => .ok .nan

/-! ## Plain data -/

/-- Whether a member of an object goes into plain data: all but undefined and functions do. -/
def isExported (v : Value) : Bool :=
  v.category != .undefined && !v.isFunction

/-- The text of a key in plain data.  A function has no text of its own: all functions have the
same. -/
def keyText : Value → String
  | .string s => s
  | .null => Datum.shown .null
  | .bool b => Datum.shown (.bool b)
  | .number (.int n) => Datum.shown (.int n)
  | .number (.float x) => Datum.shown (.float x)
  | .undefined => "undefined"
  | _ => "function"

mutual

/-- A value as data: undefined and function members of objects are left out, elsewhere they are
null, and so are numbers that are not finite.  Of entries whose keys have the same text, the first
place and the last value count. -/
def toDatum : Value → Datum
  | .undefined => .null
  | .null => .null
  | .bool b => .bool b
  | .number (.int n) => if Number.isFinite (.int n) then .int n else .null
  | .number (.float x) => if Number.isFinite (.float x) then .float x else .null
  | .string s => .string s
  | .array _ items => .array (toData items)
  | .object _ entries => .object (setEntries [] (toDataEntries entries))
  | .builtin _ => .null
  | .library _ => .null
  | .method _ _ _ => .null
  | .closure _ _ _ _ _ => .null
  | .foreign _ _ => .null

/-- Values as data. -/
def toData : List Value → List Datum
  | [] => []
  | v :: vs => toDatum v :: toData vs

/-- The entries of an object as data, one by one. -/
def toDataEntries : List (Value × Value) → List (String × Datum)
  | [] => []
  | (k, v) :: rest =>
    if v.isExported then (k.keyText, toDatum v) :: toDataEntries rest else toDataEntries rest

end

/-- Whether a key is an integer with too many digits to be written. -/
def isLongKey : Value → Bool
  | .number (.int n) => (Decimal.intText? n).isNone
  | _ => false

mutual

/-- Whether a key in a value cannot be written. -/
def hasLongKey : Value → Bool
  | .array _ items => anyLongKey items
  | .object _ entries => longKeyAmong entries
  | _ => false

/-- `hasLongKey` on lists. -/
def anyLongKey : List Value → Bool
  | [] => false
  | v :: vs => hasLongKey v || anyLongKey vs

/-- `hasLongKey` on entries. -/
def longKeyAmong : List (Value × Value) → Bool
  | [] => false
  | (k, v) :: rest => (v.isExported && (k.isLongKey || hasLongKey v)) || longKeyAmong rest

end

/-- A value as data, if its keys can be written. -/
def exported (v : Value) : Except Fault Datum :=
  if v.hasLongKey then .error (.trouble .longInteger) else .ok v.toDatum

mutual

/-- Data as a value.  Each list and object gets a label of its own, under the given one. -/
def ofDatum (label : Label) : Datum → Value
  | .null => .null
  | .bool b => .bool b
  | .int n => .number (.int n)
  | .float x => .number (.float x)
  | .string s => .string s
  | .moment m => .foreign label m.kind
  | .array items => .array label (ofData label 0 items)
  | .object entries => .object label (ofDataEntries label 0 entries)

/-- Data as values; `i` is the place of the first one. -/
def ofData (label : Label) (i : Nat) : List Datum → List Value
  | [] => []
  | d :: ds => ofDatum (i :: label) d :: ofData label (i + 1) ds

/-- Entries of data as entries of values; `i` is the place of the first one. -/
def ofDataEntries (label : Label) (i : Nat) : List (String × Datum) → List (Value × Value)
  | [] => []
  | (k, d) :: ds => (.string k, ofDatum (i :: label) d) :: ofDataEntries label (i + 1) ds

end

end Value
end Atoll
