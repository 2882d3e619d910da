import Atoll.Expr.Evaluator
import Atoll.Proofs.Outcome

/-!
# What an evaluation ends with

An evaluation has a value or ends with a fault.  Whatever goes wrong in a call is reported as a
failed call, and what goes wrong in an operator is trouble that is reported for the whole source.

* `Reports` — a worker ends each job with faults that are reported further up.
* `guardCall_fails` — arguments that a function does not take are trouble only inside the call.
* `reports_run` — **jobs nested any number of levels end with such faults**, by induction on that
  number.
* `report_reportable` — what is reported names a cause that could be met there.
-/

set_option autoImplicit false

namespace Atoll
namespace Expr

variable {below : Worker}

/-! ## Steps of an evaluation -/

theorem itemsOf_fails {inCall : Bool} (v : Value) :
    FailsWith (Fault.Reportable inCall) (itemsOf v) := by
  cases v with
  | string s => exact .ok _
  | array label items => exact .ok _
  | _ => exact .error trivial

/-- The worker ends an evaluation with faults that the source reports, and a call with faults that
the call reports. -/
structure Reports (below : Worker) : Prop where
  evaluate : ∀ (env : Env) (label : Label) (e : Expr),
    FailsWith (Fault.Reportable false) (below (.evaluate env label e))
  apply : ∀ (label : Label) (f : Value) (args : List Value),
    FailsWith (Fault.Reportable true) (below (.apply label f args))

/-- Trouble in a call never leaves it: what comes out is a report. -/
theorem guardCall_fails (hbelow : Reports below) (label : Label) (f : Value) (args : List Value) :
    FailsWith (Fault.Reportable false) (guardCall below label f args) := by
  have hcall := hbelow.apply (2 :: label) f args
  unfold guardCall
  cases hresult : below (.apply (2 :: label) f args) with
  | ok v => exact .ok v
  | error fault =>
    rw [hresult] at hcall
    cases fault with
    | failed failure => exact .error hcall
    | trouble cause => exact .error (hcall.imp_right And.right)
    | tooDeep => exact .error trivial

section

variable (hbelow : Reports below) (env : Env)
include hbelow

theorem evalElements_fails (label : Label) (i : Nat) (items : List (Element Expr)) :
    FailsWith (Fault.Reportable false) (evalElements below env label i items) := by
  induction items generalizing i with
  | nil => exact .ok _
  | cons item items ih =>
    cases item with
    | single e =>
      exact (hbelow.evaluate _ _ _).bind fun v => (ih (i + 1)).bind fun vs => .ok _
    | spread e =>
      exact (hbelow.evaluate _ _ _).bind fun v => (itemsOf_fails v).bind fun inner =>
        (ih (i + 1)).bind fun vs => .ok _

theorem evalEntries_fails (label : Label) (i : Nat) (done : Entries)
    (entries : List (Entry Expr)) :
    FailsWith (Fault.Reportable false) (evalEntries below env label i done entries) := by
  induction entries generalizing i done with
  | nil => exact .ok _
  | cons entry entries ih =>
    cases entry with
    | pair key value =>
      exact (hbelow.evaluate _ _ _).bind fun v => (hbelow.evaluate _ _ _).bind fun k =>
        k.toText_fails.bind fun s => ih (i + 1) _
    | spread e => exact (hbelow.evaluate _ _ _).bind fun v => ih (i + 1) _

theorem evalParts_fails (label : Label) (i : Nat) (parts : List (Expr × String)) :
    FailsWith (Fault.Reportable false) (evalParts below env label i parts) := by
  induction parts generalizing i with
  | nil => exact .ok _
  | cons part parts ih =>
    exact (hbelow.evaluate _ _ _).bind fun v => v.toText_fails.bind fun s =>
      (ih (i + 1)).bind fun t => .ok _

theorem evalMember_fails (label : Label) (target key : Expr) (optional : Bool) :
    FailsWith (Fault.Reportable false) (evalMember below env label target key optional) := by
  refine (hbelow.evaluate _ _ _).bind fun v => ?_
  split
  · exact .ok _
  · exact (hbelow.evaluate _ _ _).bind fun k => (v.member_fails _ k).map _

theorem evalCall_fails (label : Label) (f : Value) (args : List (Element Expr)) :
    FailsWith (Fault.Reportable false) (evalCall below env label f args) :=
  (evalElements_fails hbelow env _ 0 args).bind fun args => guardCall_fails hbelow label f args

/-- One step of an evaluation ends with a reportable fault if the steps below it do. -/
theorem evalStep_fails (scopes : List Bindings) (label : Label) (e : Expr) :
    FailsWith (Fault.Reportable false) (evalStep scopes below env label e) := by
  cases e with
  | literal l => exact .ok _
  | name id =>
    rw [evalStep]
    split
    · exact .ok _
    · exact .error trivial
  | template head parts => exact (evalParts_fails hbelow env label 0 parts).map _
  | array items => exact (evalElements_fails hbelow env _ 0 items).map _
  | object entries => exact (evalEntries_fails hbelow env label 0 [] entries).map _
  | member target key optional =>
    exact (evalMember_fails hbelow env label target key optional).map _
  | call callee args =>
    have hcall := evalCall_fails hbelow env label
    cases callee with
    | member target key optional =>
      refine (evalMember_fails hbelow env _ target key optional).bind fun f => ?_
      split
      · exact hcall _ args
      · exact .ok _
    | _ => exact (hbelow.evaluate _ _ _).bind fun f => hcall f args
  | unary op operand =>
    have hplain : FailsWith (Fault.Reportable false)
        (do (← below (.evaluate env (0 :: label) operand)).unary op) :=
      (hbelow.evaluate _ _ operand).bind fun v => v.unary_fails op
    cases op with
    | typeof =>
      cases operand with
      | name id =>
        rw [evalStep]
        split
        · exact .ok _
        · exact .ok _
      | _ => exact hplain
    | _ => exact hplain
  | binary op left right =>
    exact (hbelow.evaluate _ _ _).bind fun a =>
      (hbelow.evaluate _ _ _).bind fun b => Value.binary_fails op a b
  | logical op left right =>
    -- the three operators differ only in what makes them go on to the right side
    refine (hbelow.evaluate _ _ _).bind fun a => ?_
    have hnext : ∀ goOn : Bool, FailsWith (Fault.Reportable false)
        (if goOn then below (.evaluate env (1 :: label) right) else .ok a) := by
      intro goOn
      split
      · exact hbelow.evaluate _ _ _
      · exact .ok _
    cases op with
    | and => exact a.truthy_fails.bind hnext
    | or => exact (a.truthy_fails.map _).bind hnext
    | nullish => exact hnext a.isNothing
  | conditional test yes no =>
    refine (hbelow.evaluate _ _ _).bind fun v => v.truthy_fails.bind fun t => ?_
    split
    · exact hbelow.evaluate _ _ _
    · exact hbelow.evaluate _ _ _
  | arrow params body => exact .ok _

end

/-- One step of a call ends with a fault that the call reports, if the steps below it do. -/
theorem applyStep_fails (hbelow : Reports below) (label : Label) (f : Value) (args : List Value) :
    FailsWith (Fault.Reportable true) (applyStep below label f args) := by
  cases f with
  | builtin f => exact Value.callBuiltin_fails label f args
  | method label' m receiver =>
    exact Value.callMethod_fails (fun i f args => hbelow.apply _ f args) _ m receiver args
  | closure label' params body locals home =>
    exact (hbelow.evaluate _ label body).mono fun _ => Fault.Reportable.inCall
  | _ => exact .error trivial

/-- **Jobs nested any number of levels end with faults that are reported.** -/
theorem reports_run (scopes : List Bindings) (depth : Nat) : Reports (run scopes depth) := by
  induction depth with
  | zero =>
    exact ⟨fun env label e => .error trivial, fun label f args => .error trivial⟩
  | succ depth ih =>
    exact ⟨fun env label e => evalStep_fails ih env scopes label e,
      fun label f args => applyStep_fails ih label f args⟩

/-- What is reported for a fault outside a call is a failure with a founded reason. -/
theorem report_reportable (source : String) {fault : Fault} (h : fault.Reportable false) :
    ∃ failure, report source fault = .failed failure ∧ failure.reason.IsFounded := by
  cases fault with
  | failed failure => exact ⟨_, rfl, h⟩
  | trouble cause =>
    have hplain : cause.IsPlain := h.resolve_right fun hmisuse => Bool.noConfusion hmisuse.1
    have hkind : (cause.kind == .misuse) = false := by
      rcases hplain with hkind | hkind <;> rw [hkind] <;> rfl
    exact ⟨⟨.arithmeticFailed cause, source⟩, by rw [report, hkind]; rfl, hplain⟩
  | tooDeep => exact ⟨_, rfl, trivial⟩

end Expr
end Atoll
