import Atoll.Expr.Evaluator
import Atoll.Script.Declaration

/-!
# Scopes

A scope holds the names that a script has bound so far.  Executing a declaration binds the names of
its declarators one after the other.  A declarator whose value cannot be computed or taken apart
binds nothing, and the next one goes on; a fault that is not a reported failure stops the statement.

Functions see the names of the scope as they are when they run.
-/

set_option autoImplicit false

namespace Atoll
namespace Script

open Atoll.Expr (Fault Failure)
open Text

/-- The names bound so far, inside the scopes around them.  `executed` counts the statements that
have been executed; it labels what the next one makes. -/
structure Scope where
  outer : List Bindings
  bindings : Bindings
  executed : Nat
  deriving Repr, Inhabited

namespace Scope

/-- A scope with some names bound and nothing around it. -/
def ofNames (names : Bindings) : Scope :=
  ⟨[], names, 0⟩

/-- The number of scopes around this one. -/
def level (s : Scope) : Nat :=
  s.outer.length

/-- The value of an expression in the scope. -/
def evaluate (s : Scope) (label : Label) (source : String) : Except Fault Value :=
  Expr.evaluateIn (s.outer ++ [s.bindings]) ⟨[], s.level⟩ label source

/-! ## Patterns -/

/-- Whether a text is a name. -/
def isName (s : List Char) : Bool :=
  match s with
  | c :: cs => isNameStart c && cs.all isNameRest
  | [] => false

/-- A target without its default value, and the value to bind: the default is computed only for
undefined. -/
def withDefault (s : Scope) (label : Label) (target : List Char) (value : Value) :
    Except Fault (List Char × Value) :=
  match findAssign? target with
  | none => .ok (target, value)
  | some i =>
    match value with
    | .undefined => do
      let v ← s.evaluate label (String.ofList (trim (target.drop (i + 1))))
      .ok (target.take i, v)
    | _ => .ok (target.take i, value)

/-- A key without blanks and quotes around it. -/
def keyText (s : List Char) : String :=
  let isMark := fun c => c == '"' || c == '\''
  String.ofList (((trim s).dropWhile isMark).reverse.dropWhile isMark).reverse

/-- The key and the target of a part of an object pattern: apart from each other where there is a
colon, and else a name that is both. -/
def keyAndTarget (part : List Char) : String × List Char :=
  match findTop? ':' part with
  | some i => (keyText (part.take i), part.drop (i + 1))
  | none => (String.ofList (part.take (patternLength part)), part)

/-- The entries of an object without some keys; other values have no entries. -/
def restEntries (value : Value) (used : List String) : Entries :=
  match value with
  | .object _ entries => Entries.without used entries
  | _ => []

/-- The items of a list or text from a place on; other values have none. -/
def restItems (value : Value) (i : Nat) : List Value :=
  match value with
  | .array _ items => items.drop i
  | .string s => (s.toList.drop i).map fun c => .string c.toString
  | _ => []

/-- Binds a pattern to a value: what it adds to the names bound so far. -/
abbrev Binder := Label → List Char → Value → Bindings → Except Fault Bindings

/-- Binds the parts of an object pattern; `i` is the place of the first one, `used` are the keys
before it. -/
def bindObject (s : Scope) (bind : Binder) (label : Label) (value : Value) (i : Nat)
    (used : List String) (out : Bindings) : List (List Char) → Except Fault Bindings
  | [] => .ok out
  | part :: parts => do
    let part := trim part
    if part.isEmpty then bindObject s bind label value (i + 1) used out parts
    else
      match afterLiteral? "..." part with
      | some target =>
        let rest := .object (0 :: i :: label) (restEntries value used)
        let out ← bind (1 :: i :: label) target rest out
        bindObject s bind label value (i + 1) used out parts
      | none =>
        let (key, target) := keyAndTarget part
        let item ← value.member (2 :: i :: label) (.string key)
        let (target, item) ← s.withDefault (3 :: i :: label) target item
        let out ← bind (4 :: i :: label) target item out
        bindObject s bind label value (i + 1) (key :: used) out parts

/-- Binds the parts of a list pattern; `i` is the place of the first one. -/
def bindArray (s : Scope) (bind : Binder) (label : Label) (value : Value) (i : Nat)
    (out : Bindings) : List (List Char) → Except Fault Bindings
  | [] => .ok out
  | part :: parts => do
    let part := trim part
    if part.isEmpty then bindArray s bind label value (i + 1) out parts
    else
      match afterLiteral? "..." part with
      | some target =>
        bind (1 :: i :: label) target (.array (0 :: i :: label) (restItems value i)) out
      | none =>
        let item ← value.member (2 :: i :: label) (.ofInt i)
        let (target, item) ← s.withDefault (3 :: i :: label) part item
        let out ← bind (4 :: i :: label) target item out
        bindArray s bind label value (i + 1) out parts

/-- Binds a pattern.  The parts of a pattern are shorter than the pattern, whose length bounds
`fuel`. -/
def bindPattern (s : Scope) : Nat → Binder
  | 0, _, _, _, _ => .error .tooDeep
  | fuel + 1, label, pattern, value, out =>
    let pattern := trim pattern
    match pattern with
    | '{' :: body =>
      bindObject s (bindPattern s fuel) label value 0 [] out (splitCommas body.dropLast)
    | '[' :: body =>
      bindArray s (bindPattern s fuel) label value 0 out (splitCommas body.dropLast)
    | _ =>
      if isName pattern then .ok (setEntry (String.ofList pattern) value out)
      else .error (.because (.unsupportedPattern (String.ofList pattern)))

/-! ## Declarations -/

/-- What comes of a declarator: names with their values, nothing because of a reported failure, or a
fault that stops the statement. -/
inductive Outcome where
  | bound (names : Bindings)
  | unbound (failure : Failure)
  | stopped (fault : Fault)
  deriving Repr

/-- The names that a declarator binds. -/
def bindDeclarator (s : Scope) (label : Label) (d : Declarator) : Except Fault Bindings := do
  let value ← if d.init.isEmpty then .ok .undefined else s.evaluate (0 :: label) d.init
  bindPattern s (d.pattern.length + 1) (1 :: label) d.pattern.toList value []

/-- What comes of a declarator. -/
def declare (s : Scope) (label : Label) (d : Declarator) : Outcome :=
  match s.bindDeclarator label d with
  | .ok names => .bound names
  | .error (.failed failure) => .unbound failure
  | .error fault => .stopped fault

/-- The scope with more names bound. -/
def bind (s : Scope) (names : Bindings) : Scope :=
  { s with bindings := setEntries s.bindings names }

/-- What an execution leaves: the scope, the declarators that bound nothing, and the fault that
stopped it. -/
structure Execution where
  scope : Scope
  unbound : List (String × Failure)
  fault : Option Fault
  deriving Repr

/-- Executes declarators one after the other; `i` is the place of the first one. -/
def executeDeclarators (label : Label) (s : Scope) (i : Nat) : List Declarator → Execution
  | [] => ⟨s, [], none⟩
  | d :: ds =>
    match s.declare (i :: label) d with
    | .bound names => executeDeclarators label (s.bind names) (i + 1) ds
    | .unbound failure =>
      let rest := executeDeclarators label s (i + 1) ds
      { rest with unbound := (d.pattern, failure) :: rest.unbound }
    | .stopped fault => ⟨s, [], some fault⟩

/-- What a statement declares; nothing unless it is a declaration. -/
def declaredBy (statement : String) : List Declarator :=
  match plain? statement with
  | some text =>
    match declaration? text.toList with
    | some (_, rest) => declarators rest
    | none => []
  | none => []

/-- Executes one statement. -/
def execute (s : Scope) (statement : String) : Execution :=
  let label := [s.executed, 1, s.level]
  executeDeclarators label { s with executed := s.executed + 1 } 0 (declaredBy statement)

/-- Executes statements until one is stopped by a fault.  Those that declare nothing are passed
over and do not count. -/
def executeAll (s : Scope) : List String → Except Fault Scope
  | [] => .ok s
  | statement :: rest =>
    if (declaredBy statement).isEmpty then executeAll s rest
    else
      let done := s.execute statement
      match done.fault with
      | some fault => .error fault
      | none => executeAll done.scope rest

end Scope

/-- The names that a script binds, on top of those it starts with. -/
def bindingsOf (code : String) (names : Bindings) : Except Fault Bindings :=
  (Scope.executeAll (.ofNames names) (parts code).statements).map Scope.bindings

end Script
end Atoll
