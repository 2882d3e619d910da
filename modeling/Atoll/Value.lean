import Atoll.Expr

/-!
# Values of expressions

Lists, objects and functions have an identity besides their content: two of them are equal only if
they are one and the same.  A `Label` is that identity.  It says where in an evaluation the value
was made, as the path of steps that led there, innermost first; as no step is taken twice, values
made at different points have different labels.

A closure keeps the local names around it.  All other names it looks up when it runs, in the scope
it belongs to; `home` counts the scopes from the outermost one.
-/

set_option autoImplicit false

namespace Atoll

/-- The identity of a list, an object or a function. -/
abbrev Label := List Nat

/-- The functions that every expression can name. -/
inductive Builtin where
  | floor
  | ceil
  | round
  | trunc
  | abs
  | sign
  | sqrt
  | pow
  | min
  | max
  | stringify
  | parse
  | string
  | number
  | boolean
  | isArray
  | keys
  | values
  | entries
  deriving DecidableEq, Repr, Inhabited

/-- The objects with functions that every expression can name. -/
inductive Library where
  | math
  | json
  | array
  | object
  deriving DecidableEq, Repr, Inhabited

/-- The methods of strings. -/
inductive StringMethod where
  | toUpperCase
  | toLowerCase
  | trim
  | trimStart
  | trimEnd
  | includes
  | startsWith
  | endsWith
  | indexOf
  | lastIndexOf
  | slice
  | substring
  | split
  | replace
  | replaceAll
  | repeat
  | padStart
  | padEnd
  | charAt
  | at
  | concat
  | toString
  deriving DecidableEq, Repr, Inhabited

/-- The methods of lists. -/
inductive ArrayMethod where
  | join
  | includes
  | indexOf
  | slice
  | concat
  | at
  | flat
  | map
  | filter
  | find
  | findIndex
  | some
  | every
  | reduce
  | toReversed
  | toString
  deriving DecidableEq, Repr, Inhabited

/-- The methods of numbers and truth values. -/
inductive NumberMethod where
  | toFixed
  | toString
  deriving DecidableEq, Repr, Inhabited

/-- A method of some kind of value. -/
inductive Method where
  | string (m : StringMethod)
  | array (m : ArrayMethod)
  | number (m : NumberMethod)
  deriving DecidableEq, Repr, Inhabited

/-- A value. -/
inductive Value where
  | undefined
  | null
  | bool (b : Bool)
  | number (n : Number)
  | string (s : String)
  | array (label : Label) (items : List Value)
  | object (label : Label) (entries : List (Value × Value))
  | builtin (f : Builtin)
  | library (l : Library)
  /-- A method taken from the value it belongs to. -/
  | method (label : Label) (m : Method) (receiver : Value)
  | closure (label : Label) (params : List String) (body : Expr) (locals : List (String × Value))
    (home : Nat)
  /-- A value of a kind that expressions can only hand on, with the word for that kind. -/
  | foreign (label : Label) (kind : String)
  deriving Repr, Inhabited

/-- Names with their values. -/
abbrev Bindings := List (String × Value)

/-- The entries of an object: keys with their values. -/
abbrev Entries := List (Value × Value)

/-- The name of a function of a library or of its own. -/
def Builtin.name : Builtin → String
  | .floor => "floor"
  | .ceil => "ceil"
  | .round => "round"
  | .trunc => "trunc"
  | .abs => "abs"
  | .sign => "sign"
  | .sqrt => "sqrt"
  | .pow => "pow"
  | .min => "min"
  | .max => "max"
  | .stringify => "stringify"
  | .parse => "parse"
  | .string => "String"
  | .number => "Number"
  | .boolean => "Boolean"
  | .isArray => "isArray"
  | .keys => "keys"
  | .values => "values"
  | .entries => "entries"

/-- The name of a library. -/
def Library.name : Library → String
  | .math => "Math"
  | .json => "JSON"
  | .array => "Array"
  | .object => "Object"

/-- The functions of a library. -/
def Library.functions : Library → List Builtin
  | .math => [.floor, .ceil, .round, .trunc, .abs, .sign, .sqrt, .pow, .min, .max]
  | .json => [.stringify, .parse]
  | .array => [.isArray]
  | .object => [.keys, .values, .entries]

/-- A member of a library. -/
def Library.member? (l : Library) (key : String) : Option Value :=
  match l, key with
  | .math, "PI" => some (.number (.float 3.141592653589793))
  | .math, "E" => some (.number (.float 2.718281828459045))
  | _, _ => (l.functions.find? (·.name == key)).map .builtin

/-- What a name means that nothing else defines. -/
def global? (name : String) : Option Value :=
  match [Builtin.string, .number, .boolean].find? (·.name == name) with
  | some f => some (.builtin f)
  | none => ([Library.math, .json, .array, .object].find? (·.name == name)).map .library

/-- All methods of strings with their names. -/
def StringMethod.table : List (String × StringMethod) :=
  [("toUpperCase", .toUpperCase), ("toLowerCase", .toLowerCase), ("trim", .trim),
    ("trimStart", .trimStart), ("trimEnd", .trimEnd), ("includes", .includes),
    ("startsWith", .startsWith), ("endsWith", .endsWith), ("indexOf", .indexOf),
    ("lastIndexOf", .lastIndexOf), ("slice", .slice), ("substring", .substring), ("split", .split),
    ("replace", .replace), ("replaceAll", .replaceAll), ("repeat", .repeat),
    ("padStart", .padStart), ("padEnd", .padEnd), ("charAt", .charAt), ("at", .at),
    ("concat", .concat), ("toString", .toString)]

/-- All methods of lists with their names. -/
def ArrayMethod.table : List (String × ArrayMethod) :=
  [("join", .join), ("includes", .includes), ("indexOf", .indexOf), ("slice", .slice),
    ("concat", .concat), ("at", .at), ("flat", .flat), ("map", .map), ("filter", .filter),
    ("find", .find), ("findIndex", .findIndex), ("some", .some), ("every", .every),
    ("reduce", .reduce), ("toReversed", .toReversed), ("toString", .toString)]

/-- All methods of numbers with their names. -/
def NumberMethod.table : List (String × NumberMethod) :=
  [("toFixed", .toFixed), ("toString", .toString)]

/-- The name that a table gives a method. -/
def nameIn {α : Type} [BEq α] (table : List (String × α)) (m : α) : String :=
  ((table.find? (·.2 == m)).map (·.1)).getD ""

/-- The name of a method. -/
def Method.name : Method → String
  | .string m => nameIn StringMethod.table m
  | .array m => nameIn ArrayMethod.table m
  | .number m => nameIn NumberMethod.table m

namespace Value

/-- The value of a literal. -/
def ofLiteral : Literal → Value
  | .undefined => .undefined
  | .null => .null
  | .bool b => .bool b
  | .number n => .number n
  | .string s => .string s

/-- An integer as a value. -/
def ofInt (n : Int) : Value :=
  .number (.int n)

/-- Whether a value is null or undefined. -/
def isNothing : Value → Bool
  | .undefined => true
  | .null => true
  | _ => false

/-- Whether a value can be called. -/
def isFunction : Value → Bool
  | .builtin _ => true
  | .method _ _ _ => true
  | .closure _ _ _ _ _ => true
  | _ => false

/-- The kinds of values that equality tells apart. -/
inductive Category where
  | undefined
  | null
  | boolean
  | number
  | string
  | function
  | object
  deriving DecidableEq, Repr

/-- The kind of a value. -/
def category : Value → Category
  | .undefined => .undefined
  | .null => .null
  | .bool _ => .boolean
  | .number _ => .number
  | .string _ => .string
  | .builtin _ => .function
  | .method _ _ _ => .function
  | .closure _ _ _ _ _ => .function
  | .array _ _ => .object
  | .object _ _ => .object
  | .library _ => .object
  | .foreign _ _ => .object

/-- The name of a kind; null is called an object. -/
def Category.typeName : Category → String
  | .undefined => "undefined"
  | .null => "object"
  | .boolean => "boolean"
  | .number => "number"
  | .string => "string"
  | .function => "function"
  | .object => "object"

/-- The name of a value's type. -/
def typeName (v : Value) : String :=
  v.category.typeName

end Value
end Atoll
