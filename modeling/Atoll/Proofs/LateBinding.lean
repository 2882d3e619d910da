import Atoll.Proofs.Depth
import Atoll.Proofs.Execution

/-!
# Functions see the scope as it is when they run

A function that a script binds keeps no names of the scope.  What it uses is looked up when it is
called, among its arguments and then in the scope as it is by then, whatever has been declared there
since.

* `Scope.after`, `Scope.ranAll` — the scope that statements leave, and the declarators they run.
* `Scope.lookup_after` — a name that a function was bound to, and that nothing bound since, still
  has that function.
* `Scope.valueWith` — the value of an expression in a scope with more names bound over its own;
  `Scope.bound?_over`: those names come first, then the names of the scope.
* `Scope.evaluate_call` — **a call has the value of the function's body in the scope where the call
  stands**, with the parameters bound over it, unless there is no room to nest.
-/

set_option autoImplicit false

namespace Atoll
namespace Script

variable {below : Expr.Worker} {v : Value} {values : List Value}

namespace Scope

open Atoll.Expr (Env Fault bindParams evalElements evalCall guardCall parse report run)

/-! ## Statements one after the other -/

/-- The scope that statements leave. -/
def after (s : Scope) (statements : List String) : Scope :=
  statements.foldl (fun s statement => (s.execute statement).scope) s

/-- The declarators that statements run, and what comes of each: a statement runs in the scope that
those before it leave. -/
def ranAll (s : Scope) (statements : List String) : List (Declarator × Outcome) :=
  (statements.mapIdx fun k statement => (s.after (statements.take k)).ran statement).flatten

theorem after_cons (s : Scope) (statement : String) (rest : List String) :
    s.after (statement :: rest) = (s.execute statement).scope.after rest := by
  rw [after, List.foldl_cons, after]

theorem ranAll_cons (s : Scope) (statement : String) (rest : List String) :
    s.ranAll (statement :: rest) = s.ran statement ++ (s.execute statement).scope.ranAll rest := by
  simp only [ranAll, List.mapIdx_cons, List.flatten_cons, List.take_zero, List.take_succ_cons,
    after_cons]
  rw [after, List.foldl_nil]

theorem outer_execute (s : Scope) (statement : String) :
    (s.execute statement).scope.outer = s.outer := by
  rw [(execute_ran s statement).1, outer_bind, outer_entered]

theorem outer_after (s : Scope) (statements : List String) :
    (s.after statements).outer = s.outer := by
  induction statements generalizing s with
  | nil => rfl
  | cons statement rest ih => rw [after_cons, ih, outer_execute]

/-- What is left are the names that were there, with those that the statements bind. -/
theorem bindings_after (s : Scope) (statements : List String) :
    (s.after statements).bindings = setEntries s.bindings (boundBy (s.ranAll statements)) := by
  induction statements generalizing s with
  | nil => rfl
  | cons statement rest ih =>
    rw [after_cons, ih, ranAll_cons, boundBy_append, setEntries_append, (execute_ran s statement).1,
      bindings_bind, bindings_entered]

/-- A declarator of a statement is evaluated in the scope as the ones before it have left it. -/
theorem exists_of_mem_ranAll {s : Scope} {statements : List String} {d : Declarator}
    {outcome : Outcome} (h : (d, outcome) ∈ s.ranAll statements) :
    ∃ (s' : Scope) (label : Label), s'.outer = s.outer ∧ outcome = s'.declare label d := by
  induction statements generalizing s with
  | nil => cases h
  | cons statement rest ih =>
    rw [ranAll_cons, List.mem_append] at h
    rcases h with h | h
    · obtain ⟨k, hk⟩ := List.getElem?_of_mem h
      exact ⟨s.entered.bind _, _, rfl, (ran_declare hk).1⟩
    · obtain ⟨s', label, houter, hdeclare⟩ := ih h
      exact ⟨s', label, houter.trans (outer_execute s statement), hdeclare⟩

/-! ## Functions in a scope -/

/-- The declarator of a name with an arrow function binds the name to that function, which keeps
nothing but the number of the scope. -/
theorem declare_arrow (s : Scope) (label : Label) {f init : String} (hf : isName f.toList = true)
    {params : List String} {body : Expr} (hinit : parse init = .ok (.arrow params body)) :
    s.declare label ⟨f, init⟩ =
      .bound [(f, .closure (0 :: label) params body [] s.level)] := by
  have hempty : init.isEmpty = false := by
    refine Bool.eq_false_of_not_eq_true fun hempty => ?_
    rw [String.isEmpty_iff.1 hempty] at hinit
    obtain ⟨ts, hlex, hts, -⟩ := Expr.parse_eq_ok_iff.1 hinit
    rw [Expr.lex, String.toList_empty, Expr.lexFrom] at hlex
    cases hlex
    exact hts rfl
  have hvalue : s.evaluate (0 :: label) init =
      .ok (.closure (0 :: label) params body [] s.level) := by
    rw [evaluate_of_parse s _ hinit]
    rfl
  rw [declare, bindDeclarator_name s label hf hempty, hvalue]
  rfl

section

variable {s : Scope} {statements : List String} {f init : String} {params : List String}
  {body : Expr} {earlier later : List (Declarator × Outcome)} {outcome : Outcome}
  (hf : isName f.toList = true) (hinit : parse init = .ok (.arrow params body))
  (hran : s.ranAll statements = earlier ++ (⟨f, init⟩, outcome) :: later)
  (hlater : ∀ p ∈ later, f ∉ p.2.names.map Prod.fst)
include hf hinit hran hlater

/-- A function stays where it was bound, until the name is bound again. -/
theorem lookup_after : ∃ label,
    (s.after statements).bindings.lookup f = some (.closure label params body [] s.level) := by
  have hmem : (⟨f, init⟩, outcome) ∈ s.ranAll statements := by
    rw [hran]
    exact List.mem_append_right _ List.mem_cons_self
  obtain ⟨s', label, houter, rfl⟩ := exists_of_mem_ranAll hmem
  have hlevel : s'.level = s.level := congrArg List.length houter
  have hnot : f ∉ (boundBy later).map Prod.fst := by
    intro hmem
    obtain ⟨d, names, hp, hnames⟩ := exists_of_mem_boundBy hmem
    exact hlater _ hp hnames
  refine ⟨0 :: label, ?_⟩
  rw [bindings_after, hran, declare_arrow s' label hf hinit, hlevel, boundBy_append, boundBy_cons,
    setEntries_append, setEntries_append, lookup_setEntries_of_notMem hnot]
  exact (lookup_setEntry f f _ _).trans (if_pos rfl)

end

/-! ## Names over a scope -/

/-- The value of an expression in a scope with some names bound over its own. -/
def valueWith (s : Scope) (names : Bindings) (label : Label) (e : Expr) : Except Fault Value :=
  run (s.outer ++ [s.bindings]) Expr.maxDepth (.evaluate ⟨names.reverse, s.level⟩ label e)

theorem evaluate_eq_valueWith (s : Scope) (label : Label) {source : String} {e : Expr}
    (h : parse source = .ok e) :
    s.evaluate label source = (s.valueWith [] label e).mapError (report source) :=
  evaluate_of_parse s label h

/-- The names over a scope come first. -/
theorem bound?_over (s : Scope) (names : Bindings) (x : String) :
    Env.bound? (s.outer ++ [s.bindings]) ⟨names.reverse, s.level⟩ x =
      (setEntries s.bindings names).lookup x := by
  have hhome : (s.outer ++ [s.bindings]).getD s.level [] = s.bindings := by
    rw [level, List.getD_eq_getElem?_getD, List.getElem?_concat_length, Option.getD_some]
  rw [Env.bound?, lookup_setEntries]
  dsimp only
  rw [hhome]
  cases names.reverse.lookup x <;> rfl

theorem lookup?_of_lookup (s : Scope) {x : String} (h : s.bindings.lookup x = some v) :
    Env.lookup? (s.outer ++ [s.bindings]) ⟨[], s.level⟩ x = some v := by
  have hbound : Env.bound? (s.outer ++ [s.bindings]) ⟨[], s.level⟩ x = some v :=
    (bound?_over s [] x).trans h
  rw [Env.lookup?, hbound]

/-- Parameters take the arguments at their places; one without an argument is undefined. -/
theorem bindParams_eq_mapIdx (params : List String) (values : List Value) :
    bindParams params values = params.mapIdx fun i p => (p, values[i]?.getD .undefined) := by
  induction params generalizing values with
  | nil => rfl
  | cons p ps ih =>
    rw [bindParams, ih, List.mapIdx_cons]
    cases values with
    | nil => rfl
    | cons v vs => rfl

/-! ## Calls -/

/-- A call that is not stopped at the limit has a value exactly if what it runs has that value. -/
theorem guardCall_eq_ok {label : Label} {f : Value} :
    guardCall below label f values = .ok v ↔ below (.apply (2 :: label) f values) = .ok v := by
  rw [guardCall]
  cases below (.apply (2 :: label) f values) with
  | ok w => exact Iff.rfl
  | error fault => cases fault <;> simp

theorem evalElements_single {env : Env} {label : Label} {i : Nat} {args : List Expr}
    (h : (args.mapIdx fun k arg => below (.evaluate env ((i + k) :: label) arg)) =
      values.map .ok) : evalElements below env label i (args.map .single) = .ok values := by
  induction args generalizing i values with
  | nil =>
    cases values with
    | nil => rfl
    | cons v vs => cases h
  | cons arg args ih =>
    rw [List.mapIdx_cons] at h
    cases values with
    | nil => cases h
    | cons v vs =>
      rw [List.map_cons, List.cons.injEq, Nat.add_zero] at h
      have hrest : evalElements below env label (i + 1) (args.map .single) = .ok vs := by
        refine ih ?_
        rw [← h.2]
        simp only [Nat.add_assoc, Nat.add_comm 1]
      rw [List.map_cons, evalElements, h.1, hrest]
      rfl

section

variable {scopes : List Bindings} {env : Env} {label : Label}

theorem run_call_name {f : String} {c : Value} (h : env.lookup? scopes f = some c) (d : Nat)
    (args : List (Element Expr)) :
    run scopes (d + 2) (.evaluate env label (.call (.name f) args)) =
      evalCall (run scopes (d + 1)) env label c args := by
  have hcallee : run scopes (d + 1) (.evaluate env (0 :: label) (.name f)) = .ok c := by
    rw [run, Expr.evalStep, h]
  rw [run, Expr.evalStep, hcallee]
  · rfl
  · intro target key optional h
    cases h

/-- A function runs with less room than the call has. -/
theorem evalCall_within_guardCall {n m : Nat} (h : n ≤ m) (f : Value) {args : List (Element Expr)}
    (hargs : evalElements (run scopes m) env (1 :: label) 0 args = .ok values) :
    Expr.Within (evalCall (run scopes n) env label f args)
      (guardCall (run scopes (m + 1)) label f values) := by
  have hvalues := Expr.evalElements_within (Expr.run_within scopes h) env (1 :: label) 0 args
  rw [hargs] at hvalues
  have hcall := hvalues.bind (f := guardCall (run scopes n) label f)
    (g := guardCall (run scopes (m + 1)) label f)
    fun vs => Expr.guardCall_within (Expr.run_within scopes (Nat.le_succ_of_le h)) label f vs
  exact hcall

end

/-- **A call has the value of the function's body in the scope where the call stands.**  Let
statements run a declarator that binds a name to an arrow function, and none behind it that binds
the name again.  A call of the function in the scope that they leave, on arguments with values
there, has a value exactly if the body has one in that scope with the parameters bound over it, and
it is the same value, unless there is no room to nest.  The names that the body sees are those of
the scope with the parameters set in it.  So the name stands for the text of its function, read
where the call stands. -/
theorem evaluate_call {s : Scope} {statements : List String} {f init : String}
    {params : List String} {body : Expr} {earlier later : List (Declarator × Outcome)}
    {outcome : Outcome} (hf : isName f.toList = true)
    (hinit : parse init = .ok (.arrow params body))
    (hran : s.ranAll statements = earlier ++ (⟨f, init⟩, outcome) :: later)
    (hlater : ∀ p ∈ later, f ∉ p.2.names.map Prod.fst) {source : String} {args : List Expr}
    (hsource : parse source = .ok (.call (.name f) (args.map .single))) {label : Label}
    {values : List Value}
    (hargs : (args.mapIdx fun i arg => (s.after statements).valueWith [] (i :: 1 :: label) arg) =
      values.map .ok) :
    let here := s.after statements
    let names := params.mapIdx fun i p => (p, values[i]?.getD .undefined)
    ((∃ fault, here.evaluate label source = .error fault ∧ fault.isLimit = true) ∨
      ∀ v, here.evaluate label source = .ok v ↔ here.valueWith names (2 :: label) body = .ok v) ∧
    (∀ x, Env.bound? (here.outer ++ [here.bindings]) ⟨names.reverse, here.level⟩ x =
      (setEntries here.bindings names).lookup x) ∧
    here.valueWith [] label (.call (.name f) (args.map .single)) =
      here.valueWith [] label (.call (.arrow params body) (args.map .single)) := by
  dsimp only
  obtain ⟨made, hmade⟩ := lookup_after hf hinit hran hlater
  have hlevel : (s.after statements).level = s.level :=
    congrArg List.length (outer_after s statements)
  rw [← hlevel] at hmade
  generalize s.after statements = here at hargs hmade ⊢
  have hcall (label : Label) : here.valueWith [] label (.call (.name f) (args.map .single)) =
      evalCall (run (here.outer ++ [here.bindings]) 999) ⟨[], here.level⟩ label
        (.closure made params body [] here.level) (args.map .single) :=
    run_call_name (here.lookup?_of_lookup hmade) 998 _
  -- where a function was made has no part in its call, so one that is made on the spot does as well
  refine ⟨?_, bound?_over here _, hcall label⟩
  have hvalues : evalElements (run (here.outer ++ [here.bindings]) Expr.maxDepth) ⟨[], here.level⟩
      (1 :: label) 0 (args.map .single) = .ok values := by
    refine evalElements_single ?_
    simp only [Nat.zero_add]
    exact hargs
  have hbody (v : Value) : guardCall (run (here.outer ++ [here.bindings]) (Expr.maxDepth + 1)) label
      (.closure made params body [] here.level) values = .ok v ↔
        here.valueWith (bindParams params values) (2 :: label) body = .ok v := by
    rw [guardCall_eq_ok, run, Expr.applyStep, List.append_nil]
    rfl
  -- in the call the body has two levels less than on its own
  rw [evaluate_eq_valueWith here label hsource, hcall label, ← bindParams_eq_mapIdx]
  rcases evalCall_within_guardCall (n := 999) (by decide)
    (.closure made params body [] here.level) hvalues with heq | ⟨fault, heq, hfault⟩
  · refine .inr fun v => ?_
    rw [heq, ← hbody v]
    cases guardCall (run (here.outer ++ [here.bindings]) (Expr.maxDepth + 1)) label
      (.closure made params body [] here.level) values with
    | ok w => exact Iff.rfl
    | error fault =>
      constructor <;>
      · intro h
        cases h
  · refine .inl ⟨report source fault, ?_, (Expr.isLimit_report source fault).trans hfault⟩
    rw [heq]
    rfl

/-- A statement that declares one name with a value. -/
theorem ran_name {s : Scope} {statement x init : String} (h : declaredBy statement = [⟨x, init⟩])
    (hx : isName x.toList = true) (hinit : init.isEmpty = false)
    (hv : s.evaluate [0, 0, s.executed, 1, s.level] init = .ok v) :
    s.ran statement = [(⟨x, init⟩, .bound [(x, v)])] ∧
      (s.execute statement).scope = s.entered.bind [(x, v)] := by
  have hdeclare : s.entered.declare [0, s.executed, 1, s.level] ⟨x, init⟩ = .bound [(x, v)] := by
    have hvalue : s.entered.evaluate [0, 0, s.executed, 1, s.level] init = .ok v := hv
    rw [declare, bindDeclarator_name _ _ hx hinit, hvalue]
    rfl
  have hran : s.ran statement = [(⟨x, init⟩, .bound [(x, v)])] := by
    rw [ran, h, ranFrom, hdeclare]
    rfl
  refine ⟨hran, ?_⟩
  rw [(execute_ran s statement).1, hran]
  rfl

/-- The body of a function that calls itself, and uses a name of the scope. -/
def forwardBody : Expr :=
  .conditional (.name "a") (.call (.name "f") [.single (.name "b")]) (.name "g")

/-- A function that calls itself and uses a name that is declared behind it, twice; it is called
with one argument for two parameters. -/
theorem evaluate_call_forward :
    let s := ofNames [("t", .bool true)]
    let statements := ["const f = (a, b) => a ? f(b) : g", "let g = t", "let g = 'x'"]
    isName "f".toList = true ∧
    parse "(a, b) => a ? f(b) : g" = .ok (.arrow ["a", "b"] forwardBody) ∧
    (∃ outcome later,
      s.ranAll statements = [] ++ (⟨"f", "(a, b) => a ? f(b) : g"⟩, outcome) :: later ∧
        ∀ p ∈ later, "f" ∉ p.2.names.map Prod.fst) ∧
    parse "f(t)" = .ok (.call (.name "f") ([.name "t"].map .single)) ∧
    (s.after statements).valueWith [] [0, 1, 7] (.name "t") = .ok (.bool true) ∧
    (s.after statements).valueWith [("a", .bool true), ("b", .undefined)] [2, 7] forwardBody =
      .ok (.string "x") ∧
    (s.after statements).evaluate [7] "f(t)" = .ok (.string "x") := by
  have harrow : parse "(a, b) => a ? f(b) : g" = .ok (.arrow ["a", "b"] forwardBody) :=
    Expr.whole_eq_ok (by cbv) rfl
  have hcall : parse "f(t)" = .ok (.call (.name "f") ([.name "t"].map .single)) :=
    Expr.whole_eq_ok (by cbv) rfl
  have hname : parse "t" = .ok (.name "t") := Expr.whole_eq_ok (by cbv) rfl
  have htext : parse "'x'" = .ok (.literal (.string "x")) := Expr.whole_eq_ok (by cbv) rfl
  have hfirst : (ofNames [("t", .bool true)]).ran "const f = (a, b) => a ? f(b) : g" =
        [(⟨"f", "(a, b) => a ? f(b) : g"⟩,
          .bound [("f", .closure [0, 0, 0, 1, 0] ["a", "b"] forwardBody [] 0)])] ∧
      ((ofNames [("t", .bool true)]).execute "const f = (a, b) => a ? f(b) : g").scope =
        ⟨[], [("t", .bool true),
          ("f", .closure [0, 0, 0, 1, 0] ["a", "b"] forwardBody [] 0)], 1⟩ :=
    ran_name (by decide +kernel) rfl rfl (by rw [evaluate_of_parse _ _ harrow]; rfl)
  have hsecond (c : Value) :
      (⟨[], [("t", .bool true), ("f", c)], 1⟩ : Scope).ran "let g = t" =
        [(⟨"g", "t"⟩, .bound [("g", .bool true)])] ∧
      ((⟨[], [("t", .bool true), ("f", c)], 1⟩ : Scope).execute "let g = t").scope =
        ⟨[], [("t", .bool true), ("f", c), ("g", .bool true)], 2⟩ :=
    ran_name (by decide +kernel) rfl rfl (by rw [evaluate_of_parse _ _ hname]; rfl)
  have hthird (c : Value) :
      (⟨[], [("t", .bool true), ("f", c), ("g", .bool true)], 2⟩ : Scope).ran "let g = 'x'" =
        [(⟨"g", "'x'"⟩, .bound [("g", .string "x")])] ∧
      ((⟨[], [("t", .bool true), ("f", c), ("g", .bool true)], 2⟩ : Scope).execute
        "let g = 'x'").scope = ⟨[], [("t", .bool true), ("f", c), ("g", .string "x")], 3⟩ :=
    ran_name (by decide +kernel) rfl rfl (by rw [evaluate_of_parse _ _ htext]; rfl)
  dsimp only
  have hafter : (ofNames [("t", .bool true)]).after
      ["const f = (a, b) => a ? f(b) : g", "let g = t", "let g = 'x'"] =
        ⟨[], [("t", .bool true), ("f", .closure [0, 0, 0, 1, 0] ["a", "b"] forwardBody [] 0),
          ("g", .string "x")], 3⟩ := by
    rw [after_cons, hfirst.2, after_cons, (hsecond _).2, after_cons, (hthird _).2]
    rfl
  have hran : (ofNames [("t", .bool true)]).ranAll
      ["const f = (a, b) => a ? f(b) : g", "let g = t", "let g = 'x'"] =
        [] ++ (⟨"f", "(a, b) => a ? f(b) : g"⟩,
          .bound [("f", .closure [0, 0, 0, 1, 0] ["a", "b"] forwardBody [] 0)]) ::
            [(⟨"g", "t"⟩, .bound [("g", .bool true)]),
              (⟨"g", "'x'"⟩, .bound [("g", .string "x")])] := by
    rw [ranAll_cons, hfirst.1, hfirst.2, ranAll_cons, (hsecond _).1, (hsecond _).2, ranAll_cons,
      (hthird _).1]
    rfl
  have hlater : ∀ p ∈ [((⟨"g", "t"⟩ : Declarator), Outcome.bound [("g", .bool true)]),
      (⟨"g", "'x'"⟩, .bound [("g", .string "x")])], "f" ∉ p.2.names.map Prod.fst := by
    simp [Outcome.names]
  have hargs : ([Expr.name "t"].mapIdx fun i arg => ((ofNames [("t", .bool true)]).after
      ["const f = (a, b) => a ? f(b) : g", "let g = t", "let g = 'x'"]).valueWith []
        (i :: 1 :: [7]) arg) = [Value.bool true].map .ok := by
    rw [hafter]
    rfl
  have hvalue : ((ofNames [("t", .bool true)]).after
      ["const f = (a, b) => a ? f(b) : g", "let g = t", "let g = 'x'"]).evaluate [7] "f(t)" =
        .ok (.string "x") := by
    rw [hafter, evaluate_of_parse _ _ hcall]
    rfl
  refine ⟨rfl, harrow, ⟨_, _, hran, hlater⟩, hcall, (List.cons.inj hargs).1, ?_, hvalue⟩
  rcases (evaluate_call rfl harrow hran hlater hcall hargs).1 with ⟨fault, hfault, -⟩ | hsame
  · rw [hvalue] at hfault
    cases hfault
  · exact (hsame _).1 hvalue

end Scope
end Script
end Atoll
