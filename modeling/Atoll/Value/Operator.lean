import Atoll.Value.Convert

/-!
# Operators on values

Equality, order and arithmetic.  Strict equality compares numbers, texts and truth values by value
and everything else by identity.  Loose equality first brings two primitive values of different
kinds to numbers, and the text of an object in the object's place.
-/

set_option autoImplicit false

namespace Atoll
namespace Value

open Atoll.Expr (Fault)

/-! ## Equality -/

/-- Whether two lists, objects or functions are one and the same. -/
def same : Value → Value → Bool
  | .array a _, .array b _ => a == b
  | .object a _, .object b _ => a == b
  | .builtin f, .builtin g => f == g
  | .library l, .library m => l == m
  | .method a _ _, .method b _ _ => a == b
  | .closure a _ _ _ _, .closure b _ _ _ _ => a == b
  | .foreign a _, .foreign b _ => a == b
  | _, _ => false

/-- Strict equality. -/
def strictEq : Value → Value → Bool
  | .undefined, .undefined => true
  | .null, .null => true
  | .bool a, .bool b => a == b
  | .number a, .number b => a.eq b
  | .string a, .string b => a == b
  | a, b => same a b

/-- Whether a value is a number, a text or a truth value. -/
def isPrimitive (v : Value) : Bool :=
  v.category == .number || v.category == .string || v.category == .boolean

/-- Loose equality of values of which neither is an object, or both are. -/
def looseEqPlain (a b : Value) : Except Fault Bool :=
  if a.category == b.category then .ok (strictEq a b)
  else if a.isNothing || b.isNothing then .ok (a.isNothing && b.isNothing)
  else if a.isPrimitive && b.isPrimitive then do .ok ((← a.toNumber).eq (← b.toNumber))
  else .ok false

/-- Loose equality. -/
def looseEq (a b : Value) : Except Fault Bool :=
  if a.isNothing || b.isNothing || a.category == b.category then looseEqPlain a b
  else if a.category == .object then do looseEqPlain (.string (← a.toText)) b
  else if b.category == .object then do looseEqPlain a (.string (← b.toText))
  else looseEqPlain a b

/-- Whether two values are both not a number. -/
def bothNaN : Value → Value → Bool
  | .number (.float x), .number (.float y) => Double.isNaN x && Double.isNaN y
  | _, _ => false

/-! ## Order -/

/-- Compares two values: texts by their characters, all else as numbers.  With something that is not
a number, no order holds. -/
def compareWith (onText : String → String → Bool) (onNumber : Number → Number → Bool)
    (a b : Value) : Except Fault Bool :=
  match a, b with
  | .string s, .string t => .ok (onText s t)
  | _, _ => do
    let x ← a.toNumber
    let y ← b.toNumber
    if ← liftNumber x.isNaN then .ok false
    else if ← liftNumber y.isNaN then .ok false
    else .ok (onNumber x y)

/-- The less-than operator. -/
def lt : Value → Value → Except Fault Bool :=
  compareWith (fun s t => decide (s < t)) Number.lt

/-- The at-most operator. -/
def le : Value → Value → Except Fault Bool :=
  compareWith (fun s t => !decide (t < s)) Number.le

/-- The greater-than operator. -/
def gt : Value → Value → Except Fault Bool :=
  compareWith (fun s t => decide (t < s)) fun x y => Number.lt y x

/-- The at-least operator. -/
def ge : Value → Value → Except Fault Bool :=
  compareWith (fun s t => !decide (s < t)) fun x y => Number.le y x

/-! ## Arithmetic -/

/-- Lists and objects as their texts, other values as they are. -/
def toPrimitive (v : Value) : Except Fault Value :=
  match v with
  | .array _ _ => v.toText.map .string
  | .object _ _ => v.toText.map .string
  | _ => .ok v

/-- Whether a value is a text. -/
def isString : Value → Bool
  | .string _ => true
  | _ => false

/-- Joins texts if one side is a text, and adds numbers otherwise. -/
def add (a b : Value) : Except Fault Value := do
  let a ← a.toPrimitive
  let b ← b.toPrimitive
  if a.isString || b.isString then .ok (.string ((← a.toText) ++ (← b.toText)))
  else .ok (.number (← liftNumber (Number.add (← a.toNumber) (← b.toNumber))))

/-- An operation on two values as numbers. -/
def arithmetic (op : Number → Number → Except Trouble Number) (a b : Value) :
    Except Fault Value := do
  let x ← a.toNumber
  let y ← b.toNumber
  .ok (.number (← liftNumber (op x y)))

/-- The value of an operator between two operands. -/
def binary (op : BinaryOp) (a b : Value) : Except Fault Value :=
  match op with
  | .strictEq => .ok (.bool (strictEq a b))
  | .strictNe => .ok (.bool (!strictEq a b))
  | .looseEq => (looseEq a b).map .bool
  | .looseNe => (looseEq a b).map fun r => .bool (!r)
  | .lt => (lt a b).map .bool
  | .le => (le a b).map .bool
  | .gt => (gt a b).map .bool
  | .ge => (ge a b).map .bool
  | .add => add a b
  | .sub => arithmetic Number.sub a b
  | .mul => arithmetic Number.mul a b
  | .div => arithmetic Number.div a b
  | .rem => arithmetic Number.rem a b

/-- The value of an operator in front of its operand. -/
def unary (op : UnaryOp) (v : Value) : Except Fault Value :=
  match op with
  | .not => v.truthy.map fun b => .bool (!b)
  | .neg => v.toNumber.map fun n => .number n.neg
  | .pos => v.toNumber.map .number
  | .typeof => .ok (.string v.typeName)

end Value
end Atoll
