import Atoll.Expr.Parser

/-!
# Printing expressions

The other direction of `Expr.parse`: an expression is turned into the lexemes that spell it, and
those are written down with single spaces between them.

## What is here

* `Expr.level e` — the level of the grammar that an expression belongs to, from the loosest to the
  tightest:

  | level | expressions                               |
  | ----- | ----------------------------------------- |
  | 0     | arrow functions and choices               |
  | 1–3   | `??`, `||`, `&&`                          |
  | 4–7   | equalities, orders, sums and products     |
  | 8     | operators in front of an operand          |
  | 9     | everything else: members, calls, literals |

* `Expr.lexemes e` — its lexemes.  A part stands in round brackets exactly where its level is looser
  than its place asks for (`Expr.within`): the left operand of an operator may be of the same level,
  the right one may not.
* `Expr.print e` — the text.
* `Expr.isPrintable e` — what can be printed: no template texts, names that are read as names, and
  among the numbers only the integers that have a hexadecimal form.
* `Expr.nesting e` — how many levels of the grammar lie above its innermost part.
* `Expr.all_lexemes` — every lexeme of a printable expression has a spelling.
-/

set_option autoImplicit false

namespace Atoll

open Atoll.Expr (Symbol Lexeme)

/-! ## Operators and their levels -/

/-- How an operator in front of an operand is written. -/
def UnaryOp.lexeme : UnaryOp → Lexeme
  | .not => .symbol .bang
  | .neg => .symbol .minus
  | .pos => .symbol .plus
  | .typeof => .name "typeof"

namespace BinaryOp

/-- How an operator is written. -/
def symbol : BinaryOp → Symbol
  | .strictEq => .strictEq
  | .strictNe => .strictNe
  | .looseEq => .looseEq
  | .looseNe => .looseNe
  | .lt => .lt
  | .le => .le
  | .gt => .gt
  | .ge => .ge
  | .add => .plus
  | .sub => .minus
  | .mul => .star
  | .div => .slash
  | .rem => .percent

/-- Equalities, orders, sums and products. -/
def level : BinaryOp → Nat
  | .strictEq | .strictNe | .looseEq | .looseNe => 4
  | .lt | .le | .gt | .ge => 5
  | .add | .sub => 6
  | .mul | .div | .rem => 7

theorem level_bounds (op : BinaryOp) : 1 ≤ op.level ∧ op.level ≤ 7 := by
  cases op <;> decide

end BinaryOp

namespace LogicalOp

/-- How an operator is written. -/
def symbol : LogicalOp → Symbol
  | .and => .and
  | .or => .or
  | .nullish => .nullish

/-- Fallbacks, disjunctions and conjunctions. -/
def level : LogicalOp → Nat
  | .nullish => 1
  | .or => 2
  | .and => 3

theorem level_bounds (op : LogicalOp) : 1 ≤ op.level ∧ op.level ≤ 7 := by
  cases op <;> decide

end LogicalOp

/-- How a literal is written. -/
def Literal.lexeme : Literal → Lexeme
  | .undefined => .name "undefined"
  | .null => .name "null"
  | .bool true => .name "true"
  | .bool false => .name "false"
  | .number n => .number n
  | .string s => .string s

/-- The value in an element. -/
def Element.value {α : Type} : Element α → α
  | .single a => a
  | .spread a => a

/-- The values in an entry. -/
def Entry.values {α : Type} : Entry α → List α
  | .pair key value => [key, value]
  | .spread a => [a]

namespace Expr

open Text

variable {key : Expr}

/-- The level of the grammar that an expression belongs to. -/
def level : Expr → Nat
  | .arrow _ _ => 0
  | .conditional _ _ _ => 0
  | .logical op _ _ => op.level
  | .binary op _ _ => op.level
  | .unary _ _ => 8
  | _ => 9

/-! ## Lexemes -/

/-- Whether a text is read as one name. -/
def isName (s : String) : Bool :=
  match s.toList with
  | [] => false
  | c :: cs => isNameStart c && cs.all isNamePart

/-- The name that can stand behind a dot in place of a key in square brackets. -/
def propertyName? : Expr → Option String
  | .literal (.string s) => if isName s then some s else none
  | _ => none

/-- The lexeme that can stand in front of a colon in place of a key in square brackets. -/
def keyLexeme? : Expr → Option Lexeme
  | .literal (.string s) => some (if isName s then .name s else .string s)
  | _ => none

/-- Lexemes in brackets. -/
def enclosed (opening closing : Symbol) (ls : List Lexeme) : List Lexeme :=
  .symbol opening :: (ls ++ [.symbol closing])

/-- Groups of lexemes with commas between them. -/
def commas (groups : List (List Lexeme)) : List Lexeme :=
  [.symbol .comma].intercalate groups

theorem commas_cons_cons (g h : List Lexeme) (gs : List (List Lexeme)) :
    commas (g :: h :: gs) = g ++ .symbol .comma :: commas (h :: gs) := by
  simp [commas, List.intercalate]

theorem commas_singleton (g : List Lexeme) : commas [g] = g := by
  simp [commas]

/-- The lexemes of an expression at a place that asks for a level: in round brackets if the
expression is looser. -/
def atLevel (n : Nat) (e : Expr) (ls : List Lexeme) : List Lexeme :=
  if e.level < n then enclosed .parenOpen .parenClose ls else ls

/-- Access to a key, whose own lexemes are given. -/
def accessLexemes (key : Expr) (optional : Bool) (ls : List Lexeme) : List Lexeme :=
  match key.propertyName? with
  | some id => [.symbol (if optional then .optional else .dot), .name id]
  | none => (if optional then [.symbol .optional] else []) ++ enclosed .squareOpen .squareClose ls

/-- The parameters of an arrow function: one alone needs no brackets. -/
def paramLexemes : List String → List Lexeme
  | [p] => [.name p]
  | ps => enclosed .parenOpen .parenClose (commas (ps.map fun p => [.name p]))

mutual

/-- The lexemes that spell an expression. -/
def lexemes : Expr → List Lexeme
  | .literal v => [v.lexeme]
  | .name id => [.name id]
  | .template _ _ => []
  | .array items => enclosed .squareOpen .squareClose (commas (elementLexemes items))
  | .object entries => enclosed .curlyOpen .curlyClose (commas (entryLexemes entries))
  | .member target key optional =>
    atLevel 9 target (lexemes target) ++ accessLexemes key optional (lexemes key)
  | .call callee args =>
    atLevel 9 callee (lexemes callee) ++
      enclosed .parenOpen .parenClose (commas (elementLexemes args))
  | .unary op operand => op.lexeme :: atLevel 8 operand (lexemes operand)
  | .binary op left right =>
    atLevel op.level left (lexemes left) ++
      .symbol op.symbol :: atLevel (op.level + 1) right (lexemes right)
  | .logical op left right =>
    atLevel op.level left (lexemes left) ++
      .symbol op.symbol :: atLevel (op.level + 1) right (lexemes right)
  | .conditional test yes no =>
    atLevel 1 test (lexemes test) ++
      .symbol .question :: (lexemes yes ++ .symbol .colon :: lexemes no)
  | .arrow params body => paramLexemes params ++ .symbol .arrow :: lexemes body

/-- The lexemes of the elements of a list, one group for each. -/
def elementLexemes : List (Element Expr) → List (List Lexeme)
  | [] => []
  | .single e :: rest => lexemes e :: elementLexemes rest
  | .spread e :: rest => (.symbol .dots :: lexemes e) :: elementLexemes rest

/-- The lexemes of the entries of an object, one group for each. -/
def entryLexemes : List (Entry Expr) → List (List Lexeme)
  | [] => []
  | .pair key value :: rest =>
    (((keyLexeme? key).elim (enclosed .squareOpen .squareClose (lexemes key)) fun l => [l]) ++
      .symbol .colon :: lexemes value) :: entryLexemes rest
  | .spread e :: rest => (.symbol .dots :: lexemes e) :: entryLexemes rest

end

/-- The lexemes of an expression at a place that asks for a level. -/
def within (n : Nat) (e : Expr) : List Lexeme :=
  atLevel n e e.lexemes

/-- The lexemes of one element of a list. -/
def ofElement : Element Expr → List Lexeme
  | .single e => e.lexemes
  | .spread e => .symbol .dots :: e.lexemes

/-- The lexemes of a key in front of a colon. -/
def ofKey (key : Expr) : List Lexeme :=
  (keyLexeme? key).elim (enclosed .squareOpen .squareClose key.lexemes) fun l => [l]

/-- The lexemes of one entry of an object. -/
def ofEntry : Entry Expr → List Lexeme
  | .pair key value => ofKey key ++ .symbol .colon :: value.lexemes
  | .spread e => .symbol .dots :: e.lexemes

theorem elementLexemes_eq_map (items : List (Element Expr)) :
    elementLexemes items = items.map ofElement := by
  induction items with
  | nil => rfl
  | cons x xs ih => cases x <;> rw [elementLexemes, ih] <;> rfl

theorem entryLexemes_eq_map (entries : List (Entry Expr)) :
    entryLexemes entries = entries.map ofEntry := by
  induction entries with
  | nil => rfl
  | cons x xs ih => cases x <;> rw [entryLexemes, ih] <;> rfl

section

variable (target key callee operand left right test yes no : Expr) (args : List (Element Expr))

theorem lexemes_member (optional : Bool) : (member target key optional).lexemes =
    within 9 target ++ accessLexemes key optional key.lexemes := by
  rw [lexemes, within]

theorem lexemes_call : (call callee args).lexemes =
    within 9 callee ++ enclosed .parenOpen .parenClose (commas (elementLexemes args)) := by
  rw [lexemes, within]

theorem lexemes_unary (op : UnaryOp) : (unary op operand).lexemes =
    op.lexeme :: within 8 operand := by
  rw [lexemes, within]

theorem lexemes_binary (op : BinaryOp) : (binary op left right).lexemes =
    within op.level left ++ .symbol op.symbol :: within (op.level + 1) right := by
  rw [lexemes, within, within]

theorem lexemes_logical (op : LogicalOp) : (logical op left right).lexemes =
    within op.level left ++ .symbol op.symbol :: within (op.level + 1) right := by
  rw [lexemes, within, within]

theorem lexemes_conditional : (conditional test yes no).lexemes =
    within 1 test ++ .symbol .question :: (yes.lexemes ++ .symbol .colon :: no.lexemes) := by
  rw [lexemes, within]

end

/-! ## Text -/

/-- A character between double quotes. -/
def escapeChar (c : Char) : List Char :=
  match c with
  | '"' => ['\\', '"']
  | '\\' => ['\\', '\\']
  | '\n' => ['\\', 'n']
  | _ => [c]

/-- How a lexeme is written: integers in hexadecimal, texts between double quotes. -/
def Lexeme.spelling : Lexeme → List Char
  | .number (.int n) => '0' :: 'x' :: Nat.toDigits 16 n.toNat
  | .number (.float _) => []
  | .string s => '"' :: (s.toList.flatMap escapeChar ++ ['"'])
  | .template _ _ => []
  | .name id => id.toList
  | .symbol s => s.text.toList

/-- Lexemes with a space between every two of them. -/
def spaced (ls : List Lexeme) : List Char :=
  [' '].intercalate (ls.map Lexeme.spelling)

/-- The text of an expression. -/
def print (e : Expr) : String :=
  String.ofList (spaced e.lexemes)

/-! ## What can be printed -/

/-- Whether a text is read as the name of a variable: it is a name, it stands for no value and it is
no operator. -/
def isIdentifier (s : String) : Bool :=
  isName s && (keyword? s).isNone && s != "typeof"

/-- Whether a lexeme has a spelling. -/
def Lexeme.isPrintable : Lexeme → Bool
  | .number (.int n) => 0 ≤ n
  | .number (.float _) => false
  | .string _ => true
  | .template _ _ => false
  | .name id => isName id
  | .symbol _ => true

mutual

/-- Whether an expression can be printed. -/
def isPrintable : Expr → Bool
  | .literal v => v.lexeme.isPrintable
  | .name id => isIdentifier id
  | .template _ _ => false
  | .array items => arePrintable items
  | .object entries => areEntriesPrintable entries
  | .member target key _ => isPrintable target && isPrintable key
  | .call callee args => isPrintable callee && arePrintable args
  | .unary _ operand => isPrintable operand
  | .binary _ left right => isPrintable left && isPrintable right
  | .logical _ left right => isPrintable left && isPrintable right
  | .conditional test yes no => isPrintable test && isPrintable yes && isPrintable no
  | .arrow params body => params.all isIdentifier && isPrintable body

/-- Whether the elements of a list can be printed. -/
def arePrintable : List (Element Expr) → Bool
  | [] => true
  | .single e :: rest => isPrintable e && arePrintable rest
  | .spread e :: rest => isPrintable e && arePrintable rest

/-- Whether the entries of an object can be printed. -/
def areEntriesPrintable : List (Entry Expr) → Bool
  | [] => true
  | .pair key value :: rest => isPrintable key && isPrintable value && areEntriesPrintable rest
  | .spread e :: rest => isPrintable e && areEntriesPrintable rest

end

/-! ## Nesting -/

/-- The nesting of an expression at a place that asks for a level: brackets add one. -/
def nestingAt (n : Nat) (e : Expr) (nested : Nat) : Nat :=
  if e.level < n then nested + 1 else nested

mutual

/-- How many levels of nested parts the spelling of an expression has.  Operands are on the level of
their operator, unless it stands in front of them; everything else inside an expression is one level
further down. -/
def nesting : Expr → Nat
  | .literal _ => 0
  | .name _ => 0
  | .template _ _ => 0
  | .array items => elementNesting items
  | .object entries => entryNesting entries
  | .member target key _ =>
    max (nestingAt 9 target (nesting target))
      ((propertyName? key).elim (nesting key + 1) fun _ => 0)
  | .call callee args => max (nestingAt 9 callee (nesting callee)) (elementNesting args)
  | .unary _ operand => nestingAt 8 operand (nesting operand) + 1
  | .binary op left right =>
    max (nestingAt op.level left (nesting left)) (nestingAt (op.level + 1) right (nesting right))
  | .logical op left right =>
    max (nestingAt op.level left (nesting left)) (nestingAt (op.level + 1) right (nesting right))
  | .conditional test yes no =>
    max (nestingAt 1 test (nesting test)) (max (nesting yes) (nesting no) + 1)
  | .arrow _ body => nesting body + 1

/-- The nesting of the elements of a list. -/
def elementNesting : List (Element Expr) → Nat
  | [] => 0
  | .single e :: rest => max (nesting e + 1) (elementNesting rest)
  | .spread e :: rest => max (nesting e + 1) (elementNesting rest)

/-- The nesting of the entries of an object. -/
def entryNesting : List (Entry Expr) → Nat
  | [] => 0
  | .pair key value :: rest =>
    max ((keyLexeme? key).elim (nesting key + 1) fun _ => 0)
      (max (nesting value + 1) (entryNesting rest))
  | .spread e :: rest => max (nesting e + 1) (entryNesting rest)

end

theorem nesting_of_mem_elements {items : List (Element Expr)} {x : Element Expr} (hx : x ∈ items) :
    x.value.nesting + 1 ≤ elementNesting items := by
  induction items with
  | nil => cases hx
  | cons y ys ih =>
    rcases List.mem_cons.mp hx with rfl | hx
    · cases x <;> exact Nat.le_max_left _ _
    · have hle := ih hx
      cases y <;> exact Nat.le_trans hle (Nat.le_max_right _ _)

/-- The nesting of one entry of an object. -/
def nestingOfEntry : Entry Expr → Nat
  | .pair key value => max ((keyLexeme? key).elim (key.nesting + 1) fun _ => 0) (value.nesting + 1)
  | .spread e => e.nesting + 1

theorem nesting_of_mem_entries {entries : List (Entry Expr)} {x : Entry Expr} (hx : x ∈ entries) :
    nestingOfEntry x ≤ entryNesting entries := by
  induction entries with
  | nil => cases hx
  | cons y ys ih =>
    rcases List.mem_cons.mp hx with rfl | hx
    · cases x with
      | pair key value =>
        rw [nestingOfEntry, entryNesting]
        omega
      | spread e => exact Nat.le_max_left _ _
    · have hle := ih hx
      cases y with
      | pair key value =>
        rw [entryNesting]
        omega
      | spread e => exact Nat.le_trans hle (Nat.le_max_right _ _)

/-! ## Every lexeme of a printable expression has a spelling -/

theorem all_enclosed (opening closing : Symbol) (ls : List Lexeme) :
    (enclosed opening closing ls).all Lexeme.isPrintable = ls.all Lexeme.isPrintable := by
  simp [enclosed, Lexeme.isPrintable]

theorem all_atLevel (n : Nat) (e : Expr) (ls : List Lexeme) :
    (atLevel n e ls).all Lexeme.isPrintable = ls.all Lexeme.isPrintable := by
  unfold atLevel
  split
  · exact all_enclosed _ _ ls
  · rfl

theorem all_commas (groups : List (List Lexeme)) :
    (commas groups).all Lexeme.isPrintable = groups.all fun g => g.all Lexeme.isPrintable := by
  induction groups with
  | nil => rfl
  | cons g gs ih =>
    cases gs with
    | nil => simp [commas_singleton]
    | cons h gs =>
      rw [commas_cons_cons, List.all_append, List.all_cons, ih, List.all_cons]
      rfl

theorem isPrintable_of_keyLexeme? {l : Lexeme} (h : keyLexeme? key = some l) :
    l.isPrintable = true := by
  unfold keyLexeme? at h
  split at h
  · cases h
    split
    · assumption
    · rfl
  · cases h

theorem all_keyLexemes (h : key.lexemes.all Lexeme.isPrintable = true) :
    (ofKey key).all Lexeme.isPrintable = true := by
  rw [ofKey]
  cases hkey : keyLexeme? key with
  | some l => simp [isPrintable_of_keyLexeme? hkey]
  | none => rwa [Option.elim_none, all_enclosed]

theorem all_accessLexemes (optional : Bool) (h : key.lexemes.all Lexeme.isPrintable = true) :
    (accessLexemes key optional key.lexemes).all Lexeme.isPrintable = true := by
  unfold accessLexemes
  split
  · rename_i id hid
    have hname : isName id = true := by
      unfold propertyName? at hid
      split at hid
      · split at hid
        · cases hid
          assumption
        · cases hid
      · cases hid
    simp [Lexeme.isPrintable, hname]
  · rw [List.all_append, all_enclosed, h]
    cases optional <;> rfl

theorem all_paramLexemes {params : List String} (h : params.all isIdentifier = true) :
    (paramLexemes params).all Lexeme.isPrintable = true := by
  have hnames : ∀ p ∈ params, isName p = true := by
    intro p hp
    have hid := List.all_eq_true.mp h p hp
    rw [isIdentifier, Bool.and_eq_true, Bool.and_eq_true] at hid
    exact hid.1.1
  unfold paramLexemes
  split
  · simpa [Lexeme.isPrintable] using hnames
  · simpa [all_enclosed, all_commas, Lexeme.isPrintable, List.all_map] using hnames

mutual

/-- **Every lexeme of a printable expression has a spelling.** -/
theorem all_lexemes (e : Expr) (h : e.isPrintable = true) :
    e.lexemes.all Lexeme.isPrintable = true := by
  match e, h with
  | .literal v, h =>
    rw [isPrintable] at h
    rw [lexemes, List.all_cons, h]
    rfl
  | .name id, h =>
    rw [isPrintable, isIdentifier, Bool.and_eq_true, Bool.and_eq_true] at h
    rw [lexemes, List.all_cons, Lexeme.isPrintable, h.1.1]
    rfl
  | .array items, h =>
    rw [lexemes, all_enclosed, all_commas]
    exact all_elementLexemes items h
  | .object entries, h =>
    rw [lexemes, all_enclosed, all_commas]
    exact all_entryLexemes entries h
  | .member target key optional, h =>
    rw [isPrintable, Bool.and_eq_true] at h
    rw [lexemes, List.all_append, all_atLevel, all_lexemes target h.1,
      all_accessLexemes optional (all_lexemes key h.2)]
    rfl
  | .call callee args, h =>
    rw [isPrintable, Bool.and_eq_true] at h
    rw [lexemes, List.all_append, all_atLevel, all_lexemes callee h.1, all_enclosed, all_commas,
      all_elementLexemes args h.2]
    rfl
  | .unary op operand, h =>
    rw [lexemes, List.all_cons, all_atLevel, all_lexemes operand h]
    cases op <;> rfl
  | .binary op left right, h =>
    rw [isPrintable, Bool.and_eq_true] at h
    rw [lexemes, List.all_append, List.all_cons, all_atLevel, all_atLevel, all_lexemes left h.1,
      all_lexemes right h.2]
    rfl
  | .logical op left right, h =>
    rw [isPrintable, Bool.and_eq_true] at h
    rw [lexemes, List.all_append, List.all_cons, all_atLevel, all_atLevel, all_lexemes left h.1,
      all_lexemes right h.2]
    rfl
  | .conditional test yes no, h =>
    rw [isPrintable, Bool.and_eq_true, Bool.and_eq_true] at h
    rw [lexemes, List.all_append, List.all_cons, List.all_append, List.all_cons, all_atLevel,
      all_lexemes test h.1.1, all_lexemes yes h.1.2, all_lexemes no h.2]
    rfl
  | .arrow params body, h =>
    rw [isPrintable, Bool.and_eq_true] at h
    rw [lexemes, List.all_append, List.all_cons, all_paramLexemes h.1, all_lexemes body h.2]
    rfl

theorem all_elementLexemes (items : List (Element Expr)) (h : arePrintable items = true) :
    ((elementLexemes items).all fun g => g.all Lexeme.isPrintable) = true := by
  match items, h with
  | [], _ => rfl
  | .single e :: rest, h =>
    rw [arePrintable, Bool.and_eq_true] at h
    rw [elementLexemes, List.all_cons, all_lexemes e h.1, all_elementLexemes rest h.2]
    rfl
  | .spread e :: rest, h =>
    rw [arePrintable, Bool.and_eq_true] at h
    rw [elementLexemes, List.all_cons, List.all_cons, all_lexemes e h.1,
      all_elementLexemes rest h.2]
    rfl

theorem all_entryLexemes (entries : List (Entry Expr)) (h : areEntriesPrintable entries = true) :
    ((entryLexemes entries).all fun g => g.all Lexeme.isPrintable) = true := by
  match entries, h with
  | [], _ => rfl
  | .pair key value :: rest, h =>
    rw [areEntriesPrintable, Bool.and_eq_true, Bool.and_eq_true] at h
    have hkey := all_keyLexemes (all_lexemes key h.1.1)
    rw [ofKey] at hkey
    rw [entryLexemes, List.all_cons, List.all_append, List.all_cons, hkey,
      all_lexemes value h.1.2, all_entryLexemes rest h.2]
    rfl
  | .spread e :: rest, h =>
    rw [areEntriesPrintable, Bool.and_eq_true] at h
    rw [entryLexemes, List.all_cons, List.all_cons, all_lexemes e h.1, all_entryLexemes rest h.2]
    rfl

end

end Expr
end Atoll
