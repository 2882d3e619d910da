import Atoll.Expr.Token.Lexer

/-!
# Reading expressions

From the loosest to the tightest:

* an arrow function, or a choice `test ? yes : no`
* `??`, `||`, `&&`, the equalities, the orders, sums and products, each from left to right
* the operators in front of an operand
* members and calls behind an operand
* literals, names, lists, objects and bracketed expressions

`parseAt` recurses on the number of levels an expression may still be nested; `step` is one level
of the grammar over a parser for the level below.
-/

set_option autoImplicit false

namespace Atoll
namespace Expr

/-- A parser takes something from the front of a token list. -/
abbrev Parser (α : Type) := List Token → Except Fault (α × List Token)

/-- What a nested parser is asked for. -/
inductive Goal where
  | expression
  | unary
  deriving DecidableEq, Repr

/-- The parser for nested parts: given their source, and what is asked for. -/
abbrev Below := String → Goal → Parser Expr

/-! ## Single tokens -/

/-- What stands at the front, for a message. -/
def found : List Token → Except Fault String
  | [] => .ok "end of expression"
  | t :: _ => t.lexeme.quoted

/-- Whether a symbol stands at the front. -/
def startsWith (symbol : Symbol) : List Token → Bool
  | ⟨.symbol s, _⟩ :: _ => s == symbol
  | _ => false

/-- Takes the given symbol. -/
def expect (source : String) (symbol : Symbol) : Parser Unit := fun ts =>
  if startsWith symbol ts then .ok ((), ts.drop 1)
  else do .error (.about source (.expected symbol.text (← found ts)))

/-- Takes a name behind a dot. -/
def propertyName (source : String) : Parser String
  | ⟨.name id, _⟩ :: ts => .ok (id, ts)
  | _ => .error (.about source .expectedPropertyName)

/-! ## Operators -/

/-- Products. -/
def product? : Symbol → Option (Expr → Expr → Expr)
  | .star => some (.binary .mul)
  | .slash => some (.binary .div)
  | .percent => some (.binary .rem)
  | _ => none

/-- Sums. -/
def sum? : Symbol → Option (Expr → Expr → Expr)
  | .plus => some (.binary .add)
  | .minus => some (.binary .sub)
  | _ => none

/-- Orders. -/
def order? : Symbol → Option (Expr → Expr → Expr)
  | .lt => some (.binary .lt)
  | .le => some (.binary .le)
  | .gt => some (.binary .gt)
  | .ge => some (.binary .ge)
  | _ => none

/-- Equalities. -/
def equality? : Symbol → Option (Expr → Expr → Expr)
  | .strictEq => some (.binary .strictEq)
  | .strictNe => some (.binary .strictNe)
  | .looseEq => some (.binary .looseEq)
  | .looseNe => some (.binary .looseNe)
  | _ => none

/-- Conjunctions. -/
def conjunction? : Symbol → Option (Expr → Expr → Expr)
  | .and => some (.logical .and)
  | _ => none

/-- Disjunctions. -/
def disjunction? : Symbol → Option (Expr → Expr → Expr)
  | .or => some (.logical .or)
  | _ => none

/-- Fallbacks. -/
def fallback? : Symbol → Option (Expr → Expr → Expr)
  | .nullish => some (.logical .nullish)
  | _ => none

/-- The operators between operands, from the tightest level to the loosest. -/
def levels : List (Symbol → Option (Expr → Expr → Expr)) :=
  [product?, sum?, order?, equality?, conjunction?, disjunction?, fallback?]

/-- The operator in front of an operand that a token is. -/
def unary? : Lexeme → Option UnaryOp
  | .symbol .bang => some .not
  | .symbol .minus => some .neg
  | .symbol .plus => some .pos
  | .name "typeof" => some .typeof
  | _ => none

/-- Goes on behind a left operand as long as operators of the level follow.  `fuel` bounds their
number. -/
def chain (op? : Symbol → Option (Expr → Expr → Expr)) (operand : Parser Expr) :
    Nat → Expr → Parser Expr
  | 0, left, ts => .ok (left, ts)
  | fuel + 1, left, ts =>
    match ts with
    | ⟨.symbol s, _⟩ :: rest =>
      match op? s with
      | some join => do
        let (right, rest) ← operand rest
        chain op? operand fuel (join left right) rest
      | none => .ok (left, ts)
    | _ => .ok (left, ts)

/-- Operands of the level below with operators of this level between them, from left to right. -/
def leftAssociative (operand : Parser Expr) (op? : Symbol → Option (Expr → Expr → Expr)) :
    Parser Expr := fun ts => do
  let (left, rest) ← operand ts
  chain op? operand rest.length left rest

/-! ## Arrow functions -/

/-- Names with commas between them up to a closing bracket. -/
def paramNames? : List Token → Option (List String × List Token)
  | ⟨.name p, _⟩ :: ⟨.symbol .parenClose, _⟩ :: ts => some ([p], ts)
  | ⟨.name p, _⟩ :: ⟨.symbol .comma, _⟩ :: ts => (paramNames? ts).map fun (ps, r) => (p :: ps, r)
  | _ => none

/-- The parameters of an arrow function and the arrow behind them: one name, or names in round
brackets. -/
def arrowHead? (ts : List Token) : Option (List String × List Token) :=
  match ts with
  | ⟨.name p, _⟩ :: ⟨.symbol .arrow, _⟩ :: rest =>
    if (keyword? p).isSome then none else some ([p], rest)
  | ⟨.symbol .parenOpen, _⟩ :: rest =>
    let params := match rest with
      | ⟨.symbol .parenClose, _⟩ :: rest => some ([], rest)
      | _ => paramNames? rest
    match params with
    | some (ps, ⟨.symbol .arrow, _⟩ :: rest) => some (ps, rest)
    | _ => none
  | _ => none

/-! ## Lists and objects -/

/-- Items with commas between them up to the closing bracket, in front of which another comma may
stand.  `fuel` bounds their number. -/
def separated {α : Type} (source : String) (item : Parser α) (closing : Symbol) :
    Nat → Parser (List α)
  | 0, ts => (expect source closing ts).map fun (_, r) => ([], r)
  | fuel + 1, ts =>
    if startsWith closing ts then .ok ([], ts.drop 1)
    else do
      let (x, rest) ← item ts
      if startsWith .comma rest then
        let (xs, rest) ← separated source item closing fuel (rest.drop 1)
        .ok (x :: xs, rest)
      else
        let (_, rest) ← expect source closing rest
        .ok ([x], rest)

section

variable (source : String) (expression : Parser Expr)

/-- One value, or all items of a value. -/
def element : Parser (Element Expr) := fun ts =>
  match ts with
  | ⟨.symbol .dots, _⟩ :: rest => (expression rest).map fun (e, r) => (.spread e, r)
  | _ => (expression ts).map fun (e, r) => (.single e, r)

/-- The elements up to the closing bracket. -/
def elements (closing : Symbol) : Parser (List (Element Expr)) := fun ts =>
  separated source (element expression) closing (ts.length + 1) ts

/-- A value behind a colon. -/
def valueOf (key : Expr) : Parser (Entry Expr) := fun ts => do
  let (_, ts) ← expect source .colon ts
  let (value, ts) ← expression ts
  .ok (.pair key value, ts)

/-- An entry of an object.  A name alone is a key with the value of that name. -/
def entry : Parser (Entry Expr) := fun ts =>
  match ts with
  | ⟨.symbol .dots, _⟩ :: rest => (expression rest).map fun (e, r) => (.spread e, r)
  | ⟨.symbol .squareOpen, _⟩ :: rest => do
    let (key, rest) ← expression rest
    let (_, rest) ← expect source .squareClose rest
    valueOf source expression key rest
  | ⟨.name id, _⟩ :: rest =>
    let key := .literal (.string id)
    if startsWith .colon rest then valueOf source expression key rest
    else .ok (.pair key (.name id), rest)
  | ⟨.string s, _⟩ :: rest => valueOf source expression (.literal (.string s)) rest
  | ⟨.number n, _⟩ :: rest =>
    match n.text? with
    | some s => valueOf source expression (.literal (.string s)) rest
    | none => .error (.because .numberTooLarge)
  | _ => .error (.about source .expectedPropertyKey)

/-- The entries of an object up to its closing brace. -/
def entries : Parser (List (Entry Expr)) := fun ts =>
  separated source (entry source expression) .curlyClose (ts.length + 1) ts

/-- A key in square brackets, read from behind the opening one. -/
def keyInBrackets : Parser Expr := fun ts => do
  let (key, ts) ← expression ts
  let (_, ts) ← expect source .squareClose ts
  .ok (key, ts)

/-! ## Operands -/

/-- Members and calls behind an operand.  `fuel` bounds their number. -/
def suffixes : Nat → Expr → Parser Expr
  | 0, e, ts => .ok (e, ts)
  | fuel + 1, e, ts =>
    match ts with
    | ⟨.symbol .dot, _⟩ :: rest => do
      let (id, rest) ← propertyName source rest
      suffixes fuel (.member e (.literal (.string id)) false) rest
    | ⟨.symbol .optional, _⟩ :: ⟨.symbol .squareOpen, _⟩ :: rest => do
      let (key, rest) ← keyInBrackets source expression rest
      suffixes fuel (.member e key true) rest
    | ⟨.symbol .optional, _⟩ :: ⟨.symbol .parenOpen, _⟩ :: rest => do
      let (args, rest) ← elements source expression .parenClose rest
      suffixes fuel (.call e args) rest
    | ⟨.symbol .optional, _⟩ :: rest => do
      let (id, rest) ← propertyName source rest
      suffixes fuel (.member e (.literal (.string id)) true) rest
    | ⟨.symbol .squareOpen, _⟩ :: rest => do
      let (key, rest) ← keyInBrackets source expression rest
      suffixes fuel (.member e key false) rest
    | ⟨.symbol .parenOpen, _⟩ :: rest => do
      let (args, rest) ← elements source expression .parenClose rest
      suffixes fuel (.call e args) rest
    | _ => .ok (e, ts)

/-- The expressions of a template with the texts behind them. -/
def templateExprs (whole : String → Except Fault Expr) :
    List (String × String) → Except Fault (List (Expr × String))
  | [] => .ok []
  | (code, text) :: more => do
    let e ← whole code
    .ok ((e, text) :: (← templateExprs whole more))

/-- A literal, a name, a list, an object or an expression in round brackets. -/
def primary (whole : String → Except Fault Expr) : Parser Expr := fun ts =>
  match ts with
  | ⟨.number n, _⟩ :: rest => .ok (.literal (.number n), rest)
  | ⟨.string s, _⟩ :: rest => .ok (.literal (.string s), rest)
  | ⟨.template head parts, _⟩ :: rest =>
    (templateExprs whole parts).map fun parts => (.template head parts, rest)
  | ⟨.name id, _⟩ :: rest => .ok ((keyword? id).elim (.name id) .literal, rest)
  | ⟨.symbol .parenOpen, _⟩ :: rest => do
    let (e, rest) ← expression rest
    let (_, rest) ← expect source .parenClose rest
    .ok (e, rest)
  | ⟨.symbol .squareOpen, _⟩ :: rest =>
    (elements source expression .squareClose rest).map fun (items, r) =>
      (.array items, r)
  | ⟨.symbol .curlyOpen, _⟩ :: rest =>
    (entries source expression rest).map fun (es, r) => (.object es, r)
  | _ => do .error (.about source (.unexpected (← found ts)))

end

/-! ## Expressions -/

/-- A whole source: at least one token, one expression, and nothing behind it. -/
def whole (below : Below) (source : String) : Except Fault Expr := do
  let ts ← lex source
  if ts.isEmpty then .error (.about source .emptyExpression)
  else
    let (e, rest) ← below source .expression ts
    match rest with
    | [] => .ok e
    | t :: _ => do .error (.about source (.trailing (← t.lexeme.quoted) t.offset))

/-- A source is an expression where its tokens are read to the end. -/
theorem whole_eq_ok {below : Below} {source : String} {t : Token} {ts : List Token} {e : Expr}
    (hlex : lex source = .ok (t :: ts))
    (hread : below source .expression (t :: ts) = .ok (e, [])) : whole below source = .ok e := by
  rw [whole, hlex]
  show (below source .expression (t :: ts) >>= _) = _
  rw [hread]
  rfl

/-- An operand with the operators in front of it and the members and calls behind it. -/
def operand (below : Below) (source : String) : Parser Expr := fun ts =>
  match ts.head?.bind fun t => unary? t.lexeme with
  | some op => (below source .unary (ts.drop 1)).map fun (e, r) => (.unary op e, r)
  | none => do
    let (e, rest) ← primary source (below source .expression) (whole below) ts
    suffixes source (below source .expression) rest.length e rest

/-- A choice, or what its test may be. -/
def choice (below : Below) (source : String) : Parser Expr := fun ts => do
  let (test, rest) ← levels.foldl leftAssociative (operand below source) ts
  if startsWith .question rest then
    let (yes, rest) ← below source .expression (rest.drop 1)
    let (_, rest) ← expect source .colon rest
    let (no, rest) ← below source .expression rest
    .ok (.conditional test yes no, rest)
  else .ok (test, rest)

/-- One level of the grammar over the level below. -/
def step (below : Below) : Below := fun source goal ts =>
  match goal with
  | .unary => operand below source ts
  | .expression =>
    match arrowHead? ts with
    | some (params, rest) =>
      (below source .expression rest).map fun (body, r) => (.arrow params body, r)
    | none => choice below source ts

/-- The parser for expressions nested at most so many levels. -/
def parseAt : Nat → Below
  | 0 => fun _ _ _ => .error .tooDeep
  | depth + 1 => step (parseAt depth)

/-- How deeply expressions may be nested. -/
def maxDepth : Nat :=
  1000

/-- The expression that a source spells. -/
def parse (source : String) : Except Fault Expr :=
  whole (parseAt maxDepth) source

end Expr
end Atoll
