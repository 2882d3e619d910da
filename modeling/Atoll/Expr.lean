import Atoll.Number

/-!
# Expressions

The expressions of placeholders, attributes and scripts: literals, names, template texts, lists,
objects, member access, calls, operators, choices and arrow functions.
-/

set_option autoImplicit false

namespace Atoll

/-- A value that is written down. -/
inductive Literal where
  | undefined
  | null
  | bool (b : Bool)
  | number (n : Number)
  | string (s : String)
  deriving Repr, Inhabited

/-- The operators in front of an operand. -/
inductive UnaryOp where
  | not
  | neg
  | pos
  | typeof
  deriving DecidableEq, Repr, Inhabited

/-- The operators between two operands that are both evaluated. -/
inductive BinaryOp where
  | strictEq
  | strictNe
  | looseEq
  | looseNe
  | lt
  | le
  | gt
  | ge
  | add
  | sub
  | mul
  | div
  | rem
  deriving DecidableEq, Repr, Inhabited

/-- The operators that may leave their second operand alone. -/
inductive LogicalOp where
  | and
  | or
  | nullish
  deriving DecidableEq, Repr, Inhabited

/-- An element of a list or an argument: one value, or all items of a value. -/
inductive Element (α : Type) where
  | single (a : α)
  | spread (a : α)
  deriving DecidableEq, Repr, Inhabited

/-- An entry of an object: a key with a value, or all entries of a value. -/
inductive Entry (α : Type) where
  | pair (key value : α)
  | spread (source : α)
  deriving DecidableEq, Repr, Inhabited

/-- An expression. -/
inductive Expr where
  | literal (value : Literal)
  | name (id : String)
  /-- A text, then values each with the text behind it. -/
  | template (head : String) (parts : List (Expr × String))
  | array (items : List (Element Expr))
  | object (entries : List (Entry Expr))
  /-- A property of a value; an optional access to nothing is undefined. -/
  | member (target key : Expr) (optional : Bool)
  | call (callee : Expr) (args : List (Element Expr))
  | unary (op : UnaryOp) (operand : Expr)
  | binary (op : BinaryOp) (left right : Expr)
  | logical (op : LogicalOp) (left right : Expr)
  | conditional (test yes no : Expr)
  | arrow (params : List String) (body : Expr)
  deriving Repr, Inhabited

end Atoll
