import Atoll.Expr
import Atoll.Expr.Fault

/-!
# Tokens of expressions

Numbers, strings, template texts, names and symbols.  The end of an expression is the end of the
token list and has no token of its own.
-/

set_option autoImplicit false

namespace Atoll
namespace Expr

/-- The symbols of expressions. -/
inductive Symbol where
  | dots
  | strictEq
  | strictNe
  | nullish
  | optional
  | arrow
  | looseEq
  | looseNe
  | le
  | ge
  | and
  | or
  | minus
  | plus
  | star
  | slash
  | percent
  | lt
  | gt
  | bang
  | question
  | colon
  | dot
  | comma
  | parenOpen
  | parenClose
  | squareOpen
  | squareClose
  | curlyOpen
  | curlyClose
  deriving DecidableEq, Repr, Inhabited

namespace Symbol

/-- How a symbol is written. -/
def text : Symbol → String
  | .dots => "..."
  | .strictEq => "==="
  | .strictNe => "!=="
  | .nullish => "??"
  | .optional => "?."
  | .arrow => "=>"
  | .looseEq => "=="
  | .looseNe => "!="
  | .le => "<="
  | .ge => ">="
  | .and => "&&"
  | .or => "||"
  | .minus => "-"
  | .plus => "+"
  | .star => "*"
  | .slash => "/"
  | .percent => "%"
  | .lt => "<"
  | .gt => ">"
  | .bang => "!"
  | .question => "?"
  | .colon => ":"
  | .dot => "."
  | .comma => ","
  | .parenOpen => "("
  | .parenClose => ")"
  | .squareOpen => "["
  | .squareClose => "]"
  | .curlyOpen => "\x7b"
  | .curlyClose => "\x7d"

/-- All symbols, a longer one before every symbol that it starts with. -/
def all : List Symbol :=
  [.dots, .strictEq, .strictNe, .nullish, .optional, .arrow, .looseEq, .looseNe, .le, .ge, .and,
    .or, .minus, .plus, .star, .slash, .percent, .lt, .gt, .bang, .question, .colon, .dot, .comma,
    .parenOpen, .parenClose, .squareOpen, .squareClose, .curlyOpen, .curlyClose]

end Symbol

/-- What a token says. -/
inductive Lexeme where
  | number (n : Number)
  | string (s : String)
  /-- A text, then sources of expressions each with the text behind it. -/
  | template (head : String) (parts : List (String × String))
  | name (id : String)
  | symbol (s : Symbol)
  deriving Repr, Inhabited

/-- A token and the offset at which it starts. -/
structure Token where
  lexeme : Lexeme
  offset : Nat
  deriving Repr, Inhabited

/-- A list of quoted texts in round brackets; a single one has a comma behind it. -/
def quotedList (texts : List String) : String :=
  match texts with
  | [s] => "(" ++ Text.quoted s ++ ",)"
  | _ => "(" ++ ", ".intercalate (texts.map Text.quoted) ++ ")"

/-- A token as it stands in a message.  A number with too many digits cannot be shown. -/
def Lexeme.quoted : Lexeme → Except Fault String
  | .number n =>
    match n.literal? with
    | some s => .ok s
    | none => .error (.trouble .longInteger)
  | .string s => .ok (Text.quoted s)
  | .template head parts => .ok (quotedList (head :: parts.flatMap fun (code, text) => [code, text]))
  | .name id => .ok (Text.quoted id)
  | .symbol s => .ok (Text.quoted s.text)

/-- The words that stand for values. -/
def keyword? : String → Option Literal
  | "true" => some (.bool true)
  | "false" => some (.bool false)
  | "null" => some .null
  | "undefined" => some .undefined
  | "NaN" => some (.number Number.nan)
  | "Infinity" => some (.number (.float (Double.infinity false)))
  | _ => none

end Expr
end Atoll
