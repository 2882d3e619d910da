import Atoll.Proofs.Destructuring

/-!
# Declarations are all or nothing

A statement runs its declarators from left to right.  Each is evaluated among the names that those
before it have bound, and binds all the names of its pattern or none.

* `Outcome.names`, `Scope.ran` — what a declarator binds, and the declarators that a statement runs
  with what comes of each.
* `Scope.executeDeclarators_ran` — what is left is the scope with the names that the run binds.
* `Scope.ran_declare` — **each declarator meets the names bound before it**, and only the last one
  stops the run.
* `Scope.execute_complete` — hence a statement changes the names that its complete declarators bind,
  which are the targets of their patterns, and nothing else.
-/

set_option autoImplicit false

namespace Atoll
namespace Script

variable {s : Scope} {d : Declarator} {label : Label}

namespace Scope

open Atoll.Expr (Fault parse)

/-! ## Running declarators -/

namespace Outcome

/-- The names that are bound. -/
def names : Outcome → Bindings
  | bound names => names
  | _ => []

/-- The fault that stops a statement. -/
def fault? : Outcome → Option Fault
  | stopped fault => some fault
  | _ => none

end Outcome

/-- The declarators that are run, and what comes of each; `i` is the place of the first one. -/
def ranFrom (label : Label) (s : Scope) (i : Nat) : List Declarator → List (Declarator × Outcome)
  | [] => []
  | d :: ds =>
    let outcome := s.declare (i :: label) d
    (d, outcome) ::
      match outcome.fault? with
      | some _ => []
      | none => ranFrom label (s.bind outcome.names) (i + 1) ds

/-- The names that declarators bind, one after the other. -/
def boundBy (ran : List (Declarator × Outcome)) : Bindings :=
  ran.flatMap fun p => p.2.names

/-- A scope in which one more statement is executed. -/
def entered (s : Scope) : Scope :=
  { s with executed := s.executed + 1 }

/-- The declarators that a statement runs, and what comes of each. -/
def ran (s : Scope) (statement : String) : List (Declarator × Outcome) :=
  ranFrom [s.executed, 1, s.level] s.entered 0 (declaredBy statement)

theorem boundBy_cons (p : Declarator × Outcome) (ran : List (Declarator × Outcome)) :
    boundBy (p :: ran) = p.2.names ++ boundBy ran :=
  List.flatMap_cons

theorem boundBy_append (ran more : List (Declarator × Outcome)) :
    boundBy (ran ++ more) = boundBy ran ++ boundBy more :=
  List.flatMap_append

@[simp] theorem bindings_bind (s : Scope) (names : Bindings) :
    (s.bind names).bindings = setEntries s.bindings names :=
  rfl

@[simp] theorem outer_bind (s : Scope) (names : Bindings) : (s.bind names).outer = s.outer :=
  rfl

@[simp] theorem outer_entered (s : Scope) : s.entered.outer = s.outer :=
  rfl

@[simp] theorem bindings_entered (s : Scope) : s.entered.bindings = s.bindings :=
  rfl

theorem bind_append (s : Scope) (names more : Bindings) :
    s.bind (names ++ more) = (s.bind names).bind more := by
  rw [bind, setEntries_append]
  rfl

section

variable {label : Label} {s : Scope} {i : Nat} {d : Declarator} {ds : List Declarator}

theorem ranFrom_stopped {fault : Fault} (h : s.declare (i :: label) d = .stopped fault) :
    ranFrom label s i (d :: ds) = [(d, .stopped fault)] := by
  rw [ranFrom, h]
  rfl

theorem ranFrom_cons (h : (s.declare (i :: label) d).fault? = none) :
    ranFrom label s i (d :: ds) = (d, s.declare (i :: label) d) ::
      ranFrom label (s.bind (s.declare (i :: label) d).names) (i + 1) ds := by
  rw [ranFrom, h]

/-- The scope and the fault that are left by the declarators behind one that does not stop. -/
theorem executeDeclarators_cons (h : (s.declare (i :: label) d).fault? = none) :
    let rest := executeDeclarators label (s.bind (s.declare (i :: label) d).names) (i + 1) ds
    (executeDeclarators label s i (d :: ds)).scope = rest.scope ∧
      (executeDeclarators label s i (d :: ds)).fault = rest.fault := by
  rw [executeDeclarators]
  cases hd : s.declare (i :: label) d with
  | bound names => exact ⟨rfl, rfl⟩
  | unbound failure => exact ⟨rfl, rfl⟩
  | stopped fault =>
    rw [hd] at h
    cases h

theorem exists_of_fault? {outcome : Outcome} (h : outcome.fault? ≠ none) :
    ∃ fault, outcome = .stopped fault := by
  cases outcome with
  | stopped fault => exact ⟨fault, rfl⟩
  | _ => exact absurd rfl h

end

/-- **What is left is the scope with the names that the run binds**; the run ends early with a
fault only. -/
theorem executeDeclarators_ran (label : Label) (s : Scope) (i : Nat) (ds : List Declarator) :
    let run := ranFrom label s i ds
    let done := executeDeclarators label s i ds
    done.scope = s.bind (boundBy run) ∧ done.fault = run.findSome? (fun p => p.2.fault?) ∧
      run.map Prod.fst <+: ds ∧ (done.fault = none → run.map Prod.fst = ds) := by
  induction ds generalizing s i with
  | nil => exact ⟨rfl, rfl, List.prefix_rfl, fun _ => rfl⟩
  | cons d ds ih =>
    dsimp only
    by_cases hfault : (s.declare (i :: label) d).fault? = none
    · obtain ⟨hscope, hend, hstart, hall⟩ :=
        ih (s.bind (s.declare (i :: label) d).names) (i + 1)
      rw [(executeDeclarators_cons hfault).1, (executeDeclarators_cons hfault).2,
        ranFrom_cons hfault]
      refine ⟨?_, ?_, (List.prefix_cons_inj d).2 hstart, fun h => congrArg (d :: ·) (hall h)⟩
      · rw [hscope, boundBy_cons, bind_append]
      · rw [hend, List.findSome?_cons, hfault]
    · obtain ⟨fault, hstopped⟩ := exists_of_fault? hfault
      rw [ranFrom_stopped hstopped, executeDeclarators, hstopped]
      exact ⟨rfl, rfl, (List.prefix_cons_inj d).2 List.nil_prefix, fun h => by cases h⟩

/-- **Each declarator meets the names bound before it**, and only the last one stops the run. -/
theorem ranFrom_declare {i : Nat} {ds : List Declarator} {k : Nat} {outcome : Outcome}
    (h : (ranFrom label s i ds)[k]? = some (d, outcome)) :
    outcome = (s.bind (boundBy ((ranFrom label s i ds).take k))).declare ((i + k) :: label) d ∧
      (outcome.fault? ≠ none → k + 1 = (ranFrom label s i ds).length) := by
  induction ds generalizing s i k with
  | nil => cases h
  | cons d' ds ih =>
    by_cases hfault : (s.declare (i :: label) d').fault? = none
    · rw [ranFrom_cons hfault] at h ⊢
      cases k with
      | zero =>
        cases h
        exact ⟨rfl, fun hnot => absurd hfault hnot⟩
      | succ k =>
        obtain ⟨hdeclare, hlast⟩ := ih h
        refine ⟨?_, fun hnot => congrArg Nat.succ (hlast hnot)⟩
        rw [hdeclare, List.take_succ_cons, boundBy_cons, bind_append, Nat.add_right_comm,
          Nat.add_assoc]
    · obtain ⟨fault, hstopped⟩ := exists_of_fault? hfault
      rw [ranFrom_stopped hstopped] at h ⊢
      cases k with
      | zero =>
        cases h
        exact ⟨hstopped.symm, fun _ => rfl⟩
      | succ k => cases h

theorem exists_of_mem_boundBy {ran : List (Declarator × Outcome)} {x : String}
    (h : x ∈ (boundBy ran).map Prod.fst) :
    ∃ d names, (d, .bound names) ∈ ran ∧ x ∈ names.map Prod.fst := by
  rw [boundBy, List.map_flatMap] at h
  obtain ⟨⟨d, outcome⟩, hmem, hx⟩ := List.mem_flatMap.1 h
  cases outcome with
  | bound names => exact ⟨d, names, hmem, hx⟩
  | _ => cases hx

theorem exists_of_bindDeclarator {names : Bindings}
    (h : s.bindDeclarator label d = .ok names) : ∃ value,
      bindPattern s (d.pattern.length + 1) (1 :: label) d.pattern.toList value [] = .ok names := by
  rw [bindDeclarator] at h
  split at h
  · exact ⟨.undefined, h⟩
  · obtain ⟨value, -, hpattern⟩ := exists_of_bind h
    exact ⟨value, hpattern⟩

/-- A declarator that binds anything binds the targets of its pattern, if that is clear. -/
theorem declare_targets {names : Bindings} (h : s.declare label d = .bound names)
    (hclear : d.isClear = true) (x : String) : x ∈ names.map Prod.fst ↔ x ∈ d.targets := by
  rw [declare] at h
  split at h
  · rename_i names' hbind
    cases h
    obtain ⟨value, hpattern⟩ := exists_of_bindDeclarator hbind
    obtain ⟨new, rfl, hnew⟩ := bindPattern_names hpattern
    rw [mem_keys_setEntries, hnew hclear, Declarator.targets]
    simp
  · cases h
  · cases h

/-! ## Statements -/

theorem execute_ran (s : Scope) (statement : String) :
    (s.execute statement).scope = s.entered.bind (boundBy (s.ran statement)) ∧
      (s.execute statement).fault = (s.ran statement).findSome? (fun p => p.2.fault?) ∧
      (s.ran statement).map Prod.fst <+: declaredBy statement ∧
      ((s.execute statement).fault = none →
        (s.ran statement).map Prod.fst = declaredBy statement) :=
  executeDeclarators_ran [s.executed, 1, s.level] s.entered 0 (declaredBy statement)

theorem ran_declare {statement : String} {k : Nat} {outcome : Outcome}
    (h : (s.ran statement)[k]? = some (d, outcome)) :
    outcome = (s.entered.bind (boundBy ((s.ran statement).take k))).declare
        [k, s.executed, 1, s.level] d ∧
      (outcome.fault? ≠ none → k + 1 = (s.ran statement).length) := by
  have hdeclare := ranFrom_declare h
  rwa [Nat.zero_add] at hdeclare

/-- **A declaration is all or nothing, declarator by declarator.**  The declarators of a statement
are run from left to right, up to one that stops it with a fault.  Each is evaluated among the names
that those before it have bound, and what is left are the names that were there, with those that
the run binds.  A declarator that binds anything binds the targets of its pattern, which are written
out there, if the pattern is clear; a name that is not bound keeps its value, and none goes. -/
theorem execute_complete (s : Scope) (statement : String) :
    let ran := s.ran statement
    let done := s.execute statement
    (ran.map Prod.fst <+: declaredBy statement ∧ done.fault = ran.findSome? (fun p => p.2.fault?) ∧
      (done.fault = none → ran.map Prod.fst = declaredBy statement)) ∧
    (∀ k d outcome, ran[k]? = some (d, outcome) →
      outcome = (s.entered.bind (boundBy (ran.take k))).declare [k, s.executed, 1, s.level] d ∧
      (outcome.fault? ≠ none → k + 1 = ran.length) ∧
      (∀ names, outcome = .bound names → d.isClear = true →
        (∀ x, x ∈ names.map Prod.fst ↔ x ∈ d.targets) ∧
          ∀ x ∈ d.targets, StandsIn x.toList d.pattern.toList)) ∧
    done.scope = s.entered.bind (boundBy ran) ∧
    (∀ x, (∀ d names, (d, .bound names) ∈ ran → x ∉ names.map Prod.fst) →
      done.scope.bindings.lookup x = s.bindings.lookup x) ∧
    s.bindings.map Prod.fst <+: done.scope.bindings.map Prod.fst := by
  dsimp only
  obtain ⟨hscope, hfault, hstart, hall⟩ := execute_ran s statement
  have hbindings : (s.execute statement).scope.bindings =
      setEntries s.bindings (boundBy (s.ran statement)) := by
    rw [hscope, bindings_bind, bindings_entered]
  refine ⟨⟨hstart, hfault, hall⟩, fun k d outcome hk => ?_, hscope, fun x hx => ?_, ?_⟩
  · obtain ⟨hdeclare, hlast⟩ := ran_declare hk
    refine ⟨hdeclare, hlast, ?_⟩
    rintro names rfl hclear
    exact ⟨declare_targets hdeclare.symm hclear, fun x hx => standsIn_of_mem_targets hx⟩
  · rw [hbindings]
    refine lookup_setEntries_of_notMem (fun hmem => ?_) s.bindings
    obtain ⟨d, names, hran, hnames⟩ := exists_of_mem_boundBy hmem
    exact hx d names hran hnames
  · rw [hbindings]
    exact keys_setEntries _ _

/-- Patterns that are not clear.  The colon of a default value ends a key: `b` loses its value, and
`a` stays unbound.  The last character of an open pattern is taken for its bracket.  A list is not
read behind its rest. -/
theorem execute_misread :
    (declaredBy "const \x7b a = t ? 1 : b \x7d = o").map Declarator.targets = [["a"]] ∧
    ((ofNames [("t", .bool true), ("b", .ofInt 5), ("o", .object [] [])]).execute
      "const \x7b a = t ? 1 : b \x7d = o").scope.bindings =
        [("t", .bool true), ("b", .undefined), ("o", .object [] [])] ∧
    (declaredBy "const \x7b...abc").map Declarator.targets = [["abc"]] ∧
    ((ofNames []).execute "const \x7b...abc").scope.bindings =
      [("ab", .object [0, 0, 1, 0, 0, 1, 0] [])] ∧
    (declaredBy "const [...r, b] = o").map Declarator.targets = [["r", "b"]] ∧
    ((ofNames [("o", .array [] [])]).execute "const [...r, b] = o").scope.bindings =
      [("o", .array [] []), ("r", .array [0, 0, 1, 0, 0, 1, 0] [])] := by
  have hobject : declaredBy "const \x7b a = t ? 1 : b \x7d = o" =
      [⟨"\x7b a = t ? 1 : b \x7d", "o"⟩] := by
    decide +kernel
  have hopen : declaredBy "const \x7b...abc" = [⟨"\x7b...abc", ""⟩] := by
    decide +kernel
  have hlist : declaredBy "const [...r, b] = o" = [⟨"[...r, b]", "o"⟩] := by
    decide +kernel
  have hparse : parse "o" = .ok (.name "o") := Expr.whole_eq_ok (by cbv) rfl
  refine ⟨?_, ?_, ?_, ?_, ?_, ?_⟩
  · rw [hobject]
    decide +kernel
  · rw [execute, hobject, executeDeclarators, declare, bindDeclarator, evaluate_of_parse _ _ hparse]
    cbv
  · rw [hopen]
    decide +kernel
  · rw [execute, hopen]
    cbv
  · rw [hlist]
    decide +kernel
  · rw [execute, hlist, executeDeclarators, declare, bindDeclarator, evaluate_of_parse _ _ hparse]
    cbv

end Scope
end Script
end Atoll
