import Atoll.Expr.Parser
import Atoll.Value.Member
import Atoll.Value.Method

/-!
# The value of an expression

An expression is evaluated where some local names are bound, in one of a list of scopes.  Names are
looked up among the locals, then in the scope, then among the names that are always there.

`run` recurses on the number of levels an evaluation may still be nested.  Each step of an
evaluation has its own label; the parts of an expression get the label of the whole with one more
number in front, so that everything made in an evaluation is labelled with where it was made.
-/

set_option autoImplicit false

namespace Atoll
namespace Expr

/-- Where an expression is evaluated: the local names, the latest first, and the number of the scope
around them. -/
structure Env where
  locals : Bindings
  home : Nat
  deriving Repr, Inhabited

/-- What there is to do: evaluate an expression, or run a function. -/
inductive Job where
  | evaluate (env : Env) (label : Label) (e : Expr)
  | apply (label : Label) (f : Value) (args : List Value)

/-- Does a job. -/
abbrev Worker := Job → Except Fault Value

/-- The value of a name that is bound by a local name or in the scope. -/
def Env.bound? (scopes : List Bindings) (env : Env) (name : String) : Option Value :=
  match env.locals.lookup name with
  | some v => some v
  | none => (scopes.getD env.home []).lookup name

/-- The value of a name. -/
def Env.lookup? (scopes : List Bindings) (env : Env) (name : String) : Option Value :=
  match env.bound? scopes name with
  | some v => some v
  | none => global? name

/-- Parameters with their arguments.  A parameter without one is undefined, and arguments without a
parameter are dropped. -/
def bindParams : List String → List Value → Bindings
  | [], _ => []
  | p :: ps, args => (p, args.headD .undefined) :: bindParams ps (args.drop 1)

/-- All items of a value, each on its own. -/
def itemsOf : Value → Except Fault (List Value)
  | .string s => .ok (s.toList.map fun c => .string c.toString)
  | .array _ items => .ok items
  | v => .error (.because (.notIterable v.typeName))

/-- The entries that a value gives when it is spread into an object: those of an object, the items
of a list under their places, and else none. -/
def spreadEntries : Value → Entries
  | .object _ entries => entries
  | .array _ items => items.mapIdx fun i v => (.string (toString i), v)
  | _ => []

section

variable (below : Worker) (env : Env)

/-- The values of elements; `i` is the place of the first one. -/
def evalElements (label : Label) (i : Nat) : List (Element Expr) → Except Fault (List Value)
  | [] => .ok []
  | .single e :: rest => do
    let v ← below (.evaluate env (i :: label) e)
    .ok (v :: (← evalElements label (i + 1) rest))
  | .spread e :: rest => do
    let v ← below (.evaluate env (i :: label) e)
    let items ← itemsOf v
    .ok (items ++ (← evalElements label (i + 1) rest))

/-- The entries of an object, set one after the other; a value is evaluated before its key. -/
def evalEntries (label : Label) (i : Nat) (done : Entries) :
    List (Entry Expr) → Except Fault Entries
  | [] => .ok done
  | .pair key value :: rest => do
    let v ← below (.evaluate env (i :: 0 :: label) value)
    let k ← below (.evaluate env (i :: 1 :: label) key)
    evalEntries label (i + 1) (Entries.set (.string (← k.toText)) v done) rest
  | .spread e :: rest => do
    let v ← below (.evaluate env (i :: 0 :: label) e)
    evalEntries label (i + 1) (Entries.setAll done (spreadEntries v)) rest

/-- The texts of the values in a template, with the texts between them. -/
def evalParts (label : Label) (i : Nat) : List (Expr × String) → Except Fault String
  | [] => .ok ""
  | (e, text) :: rest => do
    let v ← below (.evaluate env (i :: label) e)
    let s ← v.toText
    .ok (s ++ text ++ (← evalParts label (i + 1) rest))

/-- A member of a value; an optional access to null or undefined is `none`. -/
def evalMember (label : Label) (target key : Expr) (optional : Bool) :
    Except Fault (Option Value) := do
  let v ← below (.evaluate env (0 :: label) target)
  if optional && v.isNothing then .ok none
  else
    let k ← below (.evaluate env (1 :: label) key)
    (v.member (2 :: label) k).map some

/-- Runs a function on arguments.  Trouble in it that is not reported yet is reported as a failed
call. -/
def guardCall (label : Label) (f : Value) (args : List Value) : Except Fault Value :=
  match below (.apply (2 :: label) f args) with
  | .ok v => .ok v
  | .error (.trouble cause) => .error (.because (.callFailed (some cause)))
  | .error .tooDeep => .error (.because (.callFailed none))
  | .error fault => .error fault

/-- Evaluates arguments and runs a function on them. -/
def evalCall (label : Label) (f : Value) (args : List (Element Expr)) : Except Fault Value := do
  let args ← evalElements below env (1 :: label) 0 args
  guardCall below label f args

end

/-- One step of an evaluation over the steps below it. -/
def evalStep (scopes : List Bindings) (below : Worker) (env : Env) (label : Label) :
    Expr → Except Fault Value
  | .literal l => .ok (.ofLiteral l)
  | .name id =>
    match env.lookup? scopes id with
    | some v => .ok v
    | none => .error (.because (.notDefined id))
  | .template head parts => (evalParts below env label 0 parts).map fun s => .string (head ++ s)
  | .array items => (evalElements below env (0 :: label) 0 items).map (.array label)
  | .object entries => (evalEntries below env label 0 [] entries).map (.object label)
  | .member target key optional =>
    (evalMember below env label target key optional).map (·.getD .undefined)
  | .call (.member target key optional) args => do
    match ← evalMember below env (0 :: label) target key optional with
    | some f => evalCall below env label f args
    | none => .ok .undefined
  | .call callee args => do
    let f ← below (.evaluate env (0 :: label) callee)
    evalCall below env label f args
  | .unary .typeof (.name id) =>
    match env.lookup? scopes id with
    | some v => .ok (.string v.typeName)
    | none => .ok (.string Value.Category.undefined.typeName)
  | .unary op operand => do (← below (.evaluate env (0 :: label) operand)).unary op
  | .binary op left right => do
    let a ← below (.evaluate env (0 :: label) left)
    let b ← below (.evaluate env (1 :: label) right)
    Value.binary op a b
  | .logical op left right => do
    let a ← below (.evaluate env (0 :: label) left)
    let goOn ← match op with
      | .and => a.truthy
      | .or => a.truthy.map (!·)
      | .nullish => .ok a.isNothing
    if goOn then below (.evaluate env (1 :: label) right) else .ok a
  | .conditional test yes no => do
    if ← (← below (.evaluate env (0 :: label) test)).truthy then
      below (.evaluate env (1 :: label) yes)
    else below (.evaluate env (2 :: label) no)
  | .arrow params body => .ok (.closure label params body env.locals env.home)

/-- Runs a function over the steps below it. -/
def applyStep (below : Worker) (label : Label) (f : Value) (args : List Value) :
    Except Fault Value :=
  match f with
  | .builtin f => Value.callBuiltin label f args
  | .method _ m receiver =>
    Value.callMethod (fun i f args => below (.apply (i :: 0 :: label) f args)) (1 :: label) m
      receiver args
  | .closure _ params body locals home =>
    below (.evaluate ⟨(bindParams params args).reverse ++ locals, home⟩ label body)
  | v => .error (.because (.notAFunction v.typeName))

/-- Does jobs that are nested at most so many levels. -/
def run (scopes : List Bindings) : Nat → Worker
  | 0, _ => .error .tooDeep
  | depth + 1, .evaluate env label e => evalStep scopes (run scopes depth) env label e
  | depth + 1, .apply label f args => applyStep (run scopes depth) label f args

/-- What is reported for a fault in the evaluation of a source. -/
def report (source : String) : Fault → Fault
  | .failed ⟨reason, about⟩ => .failed ⟨reason, if about.isEmpty then source else about⟩
  | .tooDeep => .about source .tooDeep
  | .trouble cause =>
    if cause.kind == .misuse then .trouble cause else .about source (.arithmeticFailed cause)

/-- The value of the expression that a source spells. -/
def evaluateIn (scopes : List Bindings) (env : Env) (label : Label) (source : String) :
    Except Fault Value :=
  match parse source with
  | .error .tooDeep => .error (.about source .tooDeep)
  | .error fault => .error fault
  | .ok e => (run scopes maxDepth (.evaluate env label e)).mapError (report source)

/-- The value of a source where only the given names are bound. -/
def evaluate (names : Bindings) (label : Label) (source : String) : Except Fault Value :=
  evaluateIn [names] ⟨[], 0⟩ label source

end Expr
end Atoll
