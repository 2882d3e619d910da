import Atoll.Expr.Evaluator

/-!
# Room to nest

An expression may be nested so many levels and no more, where it is read and where it is evaluated.
More room changes nothing, except where there was too little of it.

* `Fault.isLimit` — the faults that say that something is nested too deeply.
* `Within x y` — the computation `x` is `y`, or ends at the limit; the lemmas beside it follow the
  steps of a computation.
* `ReadsWithin` — the same of parsers, with one lemma for each parser; `parseAt_within`: **a source
  read with less room ends at the limit or is read as with more.**
* `evalStep_within`, `applyStep_within` — one step over the steps below it, whatever expression or
  function it is for.
* `run_within` — **an evaluation with less room ends at the limit or as one with more.**
* `evaluateWithin` — the value of a source with any room to nest; `evaluateWithin_within`: the same
  holds of it.
-/

set_option autoImplicit false

namespace Atoll
namespace Expr

/-- Whether a fault says that something is nested too deeply. -/
def Fault.isLimit : Fault → Bool
  | .tooDeep => true
  | .failed ⟨.tooDeep, _⟩ => true
  | .failed ⟨.callFailed none, _⟩ => true
  | _ => false

/-- What is reported for a fault at the limit is at the limit. -/
theorem isLimit_report (source : String) (fault : Fault) :
    (report source fault).isLimit = fault.isLimit := by
  cases fault with
  | failed failure =>
    obtain ⟨reason, about⟩ := failure
    cases reason with
    | callFailed cause => cases cause <;> rfl
    | _ => rfl
  | trouble cause =>
    rw [report]
    split <;> rfl
  | tooDeep => rfl

/-! ## Computations with less room -/

section

variable {α β : Type}

/-- The first computation is the second one, or ends at the limit. -/
def Within (x y : Except Fault α) : Prop :=
  x = y ∨ ∃ fault, x = .error fault ∧ fault.isLimit = true

theorem Within.refl (x : Except Fault α) : Within x x :=
  .inl rfl

theorem Within.bind {x y : Except Fault α} {f g : α → Except Fault β} (h : Within x y)
    (hfg : ∀ a, Within (f a) (g a)) : Within (x >>= f) (y >>= g) := by
  rcases h with rfl | ⟨fault, rfl, hfault⟩
  · cases x with
    | ok a => exact hfg a
    | error fault => exact .refl _
  · exact .inr ⟨fault, rfl, hfault⟩

/-- The same step before two computations. -/
theorem Within.after (x : Except Fault α) {f g : α → Except Fault β}
    (hfg : ∀ a, Within (f a) (g a)) : Within (x >>= f) (x >>= g) :=
  (Within.refl x).bind hfg

theorem Within.map {x y : Except Fault α} (h : Within x y) (f : α → β) :
    Within (x.map f) (y.map f) := by
  rcases h with rfl | ⟨fault, rfl, hfault⟩
  · exact .refl _
  · exact .inr ⟨fault, rfl, hfault⟩

/-- What is reported of two computations. -/
theorem Within.report {x y : Except Fault α} (h : Within x y) (source : String) :
    Within (x.mapError (report source)) (y.mapError (report source)) := by
  rcases h with rfl | ⟨fault, rfl, hfault⟩
  · exact .refl _
  · exact .inr ⟨_, rfl, (isLimit_report source fault).trans hfault⟩

end

/-! ## Reading -/

/-- The first parser reads as the second one, or ends at the limit. -/
def ReadsWithin {α : Type} (p q : Parser α) : Prop :=
  ∀ ts, Within (p ts) (q ts)

section

variable {operand operand' : Parser Expr} (h : ReadsWithin operand operand')
include h

theorem chain_within (op? : Symbol → Option (Expr → Expr → Expr)) (fuel : Nat) (left : Expr) :
    ReadsWithin (chain op? operand fuel left) (chain op? operand' fuel left) := by
  induction fuel generalizing left with
  | zero => exact fun ts => .refl _
  | succ fuel ih =>
    intro ts
    unfold chain
    split
    · split
      · exact (h _).bind fun r => ih _ _
      · exact .refl _
    · exact .refl _

theorem levels_within (ops : List (Symbol → Option (Expr → Expr → Expr))) :
    ReadsWithin (ops.foldl leftAssociative operand) (ops.foldl leftAssociative operand') := by
  induction ops generalizing operand operand' with
  | nil => exact h
  | cons op? ops ih => exact ih fun ts => (h ts).bind fun r => chain_within h op? _ _ _

end

theorem separated_within {α : Type} (source : String) {item item' : Parser α}
    (h : ReadsWithin item item') (closing : Symbol) (fuel : Nat) :
    ReadsWithin (separated source item closing fuel) (separated source item' closing fuel) := by
  induction fuel with
  | zero => exact fun ts => .refl _
  | succ fuel ih =>
    intro ts
    unfold separated
    split
    · exact .refl _
    · refine (h ts).bind fun r => ?_
      obtain ⟨x, rest⟩ := r
      dsimp only
      split
      · exact (ih _).bind fun r => .refl _
      · exact .refl _

section

variable (source : String) {expression expression' : Parser Expr}
  (h : ReadsWithin expression expression')
include h

theorem elements_within (closing : Symbol) :
    ReadsWithin (elements source expression closing) (elements source expression' closing) := by
  have helement : ReadsWithin (element expression) (element expression') := by
    intro ts
    unfold element
    split
    · exact (h _).map _
    · exact (h _).map _
  exact fun ts => separated_within source helement closing _ ts

theorem valueOf_within (key : Expr) :
    ReadsWithin (valueOf source expression key) (valueOf source expression' key) :=
  fun _ => .after _ fun _ => (h _).bind fun _ => .refl _

theorem entries_within :
    ReadsWithin (entries source expression) (entries source expression') := by
  have hentry : ReadsWithin (entry source expression) (entry source expression') := by
    intro ts
    unfold entry
    split
    · exact (h _).map _
    · exact (h _).bind fun r => .after _ fun r' => valueOf_within source h _ _
    · dsimp only
      split
      · exact valueOf_within source h _ _
      · exact .refl _
    · exact valueOf_within source h _ _
    · split
      · exact valueOf_within source h _ _
      · exact .refl _
    · exact .refl _
  exact fun ts => separated_within source hentry .curlyClose _ ts

theorem keyInBrackets_within :
    ReadsWithin (keyInBrackets source expression) (keyInBrackets source expression') :=
  fun _ => (h _).bind fun _ => .refl _

theorem suffixes_within (fuel : Nat) (e : Expr) :
    ReadsWithin (suffixes source expression fuel e) (suffixes source expression' fuel e) := by
  induction fuel generalizing e with
  | zero => exact fun ts => .refl _
  | succ fuel ih =>
    intro ts
    unfold suffixes
    split
    · exact .after _ fun r => ih _ _
    · exact (keyInBrackets_within source h _).bind fun r => ih _ _
    · exact (elements_within source h .parenClose _).bind fun r => ih _ _
    · exact .after _ fun r => ih _ _
    · exact (keyInBrackets_within source h _).bind fun r => ih _ _
    · exact (elements_within source h .parenClose _).bind fun r => ih _ _
    · exact .refl _

theorem primary_within {whole whole' : String → Except Fault Expr}
    (hwhole : ∀ code, Within (whole code) (whole' code)) :
    ReadsWithin (primary source expression whole) (primary source expression' whole') := by
  have hparts : ∀ parts, Within (templateExprs whole parts) (templateExprs whole' parts) := by
    intro parts
    induction parts with
    | nil => exact .refl _
    | cons part parts ih => exact (hwhole _).bind fun e => ih.bind fun es => .refl _
  intro ts
  unfold primary
  split
  · exact .refl _
  · exact .refl _
  · exact (hparts _).map _
  · exact .refl _
  · exact (h _).bind fun r => .refl _
  · exact (elements_within source h .squareClose _).map _
  · exact (entries_within source h _).map _
  · exact .refl _

end

section

variable {below below' : Below} (h : ∀ source goal, ReadsWithin (below source goal)
  (below' source goal))
include h

theorem whole_within (source : String) : Within (whole below source) (whole below' source) := by
  refine .after _ fun ts => ?_
  split
  · exact .refl _
  · exact (h source .expression ts).bind fun r => .refl _

theorem operand_within (source : String) :
    ReadsWithin (operand below source) (operand below' source) := by
  intro ts
  unfold operand
  split
  · exact (h source .unary _).map _
  · exact (primary_within source (h source .expression) (whole_within h) ts).bind fun r =>
      suffixes_within source (h source .expression) _ _ _

theorem choice_within (source : String) :
    ReadsWithin (choice below source) (choice below' source) := by
  intro ts
  refine (levels_within (operand_within h source) levels ts).bind fun r => ?_
  obtain ⟨test, rest⟩ := r
  dsimp only
  split
  · exact (h source .expression _).bind fun r => .after _ fun r' =>
      (h source .expression _).bind fun r'' => .refl _
  · exact .refl _

theorem step_within (source : String) (goal : Goal) :
    ReadsWithin (step below source goal) (step below' source goal) := by
  intro ts
  cases goal with
  | unary => exact operand_within h source ts
  | expression =>
    rw [step, step]
    dsimp only
    split
    · exact (h source .expression _).map _
    · exact choice_within h source ts

end

/-- **A source read with less room ends at the limit or is read as with more.** -/
theorem parseAt_within {n m : Nat} (h : n ≤ m) (source : String) (goal : Goal) :
    ReadsWithin (parseAt n source goal) (parseAt m source goal) := by
  induction n generalizing m source goal with
  | zero => exact fun ts => .inr ⟨.tooDeep, rfl, rfl⟩
  | succ n ih =>
    obtain ⟨m, rfl⟩ : ∃ k, m = k + 1 := ⟨m - 1, by omega⟩
    exact step_within (fun source goal => ih (Nat.le_of_succ_le_succ h) source goal) source goal

/-! ## Methods of lists -/

section

variable {call call' : Value.Caller} (hcall : ∀ i f args, Within (call i f args) (call' i f args))
include hcall

theorem mapItems_within (f : Value) (i : Nat) (vs : List Value) :
    Within (Value.mapItems call f i vs) (Value.mapItems call' f i vs) := by
  induction vs generalizing i with
  | nil => exact .refl _
  | cons v vs ih => exact (hcall _ _ _).bind fun r => (ih (i + 1)).bind fun rs => .refl _

theorem filterItems_within (f : Value) (i : Nat) (vs : List Value) :
    Within (Value.filterItems call f i vs) (Value.filterItems call' f i vs) := by
  induction vs generalizing i with
  | nil => exact .refl _
  | cons v vs ih =>
    exact (hcall _ _ _).bind fun r => .after _ fun keep => (ih (i + 1)).bind fun rest => .refl _

theorem findItem_within (f : Value) (wanted : Bool) (i : Nat) (vs : List Value) :
    Within (Value.findItem call f wanted i vs) (Value.findItem call' f wanted i vs) := by
  induction vs generalizing i with
  | nil => exact .refl _
  | cons v vs ih =>
    refine (hcall _ _ _).bind fun r => .after _ fun t => ?_
    split
    · exact .refl _
    · exact ih (i + 1)

theorem reduceItems_within (f : Value) (i : Nat) (acc : Value) (vs : List Value) :
    Within (Value.reduceItems call f i acc vs) (Value.reduceItems call' f i acc vs) := by
  induction vs generalizing i acc with
  | nil => exact .refl _
  | cons v vs ih => exact (hcall _ _ _).bind fun acc => ih (i + 1) acc

theorem callArray_within (label : Label) (m : ArrayMethod) (items args : List Value) :
    Within (Value.callArray call label m items args)
      (Value.callArray call' label m items args) := by
  unfold Value.callArray
  split
  case h_12 f => exact (mapItems_within hcall f 0 items).map _
  case h_13 f => exact (filterItems_within hcall f 0 items).map _
  case h_14 f => exact (findItem_within hcall f true 0 items).map _
  case h_15 f => exact (findItem_within hcall f true 0 items).map _
  case h_16 f => exact (findItem_within hcall f true 0 items).map _
  case h_17 f => exact (findItem_within hcall f false 0 items).map _
  case h_18 f initial _ => exact reduceItems_within hcall f 0 initial items
  case h_19 f =>
    cases items with
    | nil => exact .refl _
    | cons first rest => exact reduceItems_within hcall f 1 first rest
  all_goals exact .refl _

theorem callMethod_within (label : Label) (m : Method) (receiver : Value) (args : List Value) :
    Within (Value.callMethod call label m receiver args)
      (Value.callMethod call' label m receiver args) := by
  unfold Value.callMethod
  split
  · exact .refl _
  · exact callArray_within hcall label _ _ args
  · exact .refl _
  · exact .refl _

end

/-! ## Steps of an evaluation -/

section

variable {below below' : Worker} (hbelow : ∀ job, Within (below job) (below' job)) (env : Env)
include hbelow

theorem evalElements_within (label : Label) (i : Nat) (items : List (Element Expr)) :
    Within (evalElements below env label i items) (evalElements below' env label i items) := by
  induction items generalizing i with
  | nil => exact .refl _
  | cons item items ih =>
    cases item with
    | single e => exact (hbelow _).bind fun v => (ih (i + 1)).bind fun vs => .refl _
    | spread e =>
      exact (hbelow _).bind fun v => .after _ fun inner => (ih (i + 1)).bind fun vs => .refl _

theorem evalEntries_within (label : Label) (i : Nat) (done : Entries)
    (entries : List (Entry Expr)) :
    Within (evalEntries below env label i done entries)
      (evalEntries below' env label i done entries) := by
  induction entries generalizing i done with
  | nil => exact .refl _
  | cons entry entries ih =>
    cases entry with
    | pair key value =>
      exact (hbelow _).bind fun v => (hbelow _).bind fun k => .after _ fun s => ih (i + 1) _
    | spread e => exact (hbelow _).bind fun v => ih (i + 1) _

theorem evalParts_within (label : Label) (i : Nat) (parts : List (Expr × String)) :
    Within (evalParts below env label i parts) (evalParts below' env label i parts) := by
  induction parts generalizing i with
  | nil => exact .refl _
  | cons part parts ih =>
    exact (hbelow _).bind fun v => .after _ fun s => (ih (i + 1)).bind fun t => .refl _

theorem evalMember_within (label : Label) (target key : Expr) (optional : Bool) :
    Within (evalMember below env label target key optional)
      (evalMember below' env label target key optional) := by
  refine (hbelow _).bind fun v => ?_
  split
  · exact .refl _
  · exact (hbelow _).bind fun k => .refl _

/-- What is nested too deeply in a call is reported as a failed call, at the limit as before. -/
theorem guardCall_within (label : Label) (f : Value) (args : List Value) :
    Within (guardCall below label f args) (guardCall below' label f args) := by
  rw [guardCall, guardCall]
  rcases hbelow (.apply (2 :: label) f args) with heq | ⟨fault, heq, hfault⟩
  · rw [heq]
    exact .refl _
  · rw [heq]
    cases fault with
    | tooDeep => exact .inr ⟨_, rfl, rfl⟩
    | failed failure => exact .inr ⟨_, rfl, hfault⟩
    | trouble cause => cases hfault

theorem evalCall_within (label : Label) (f : Value) (args : List (Element Expr)) :
    Within (evalCall below env label f args) (evalCall below' env label f args) :=
  (evalElements_within hbelow env (1 :: label) 0 args).bind fun vs =>
    guardCall_within hbelow label f vs

/-- One step of an evaluation over steps with less room. -/
theorem evalStep_within (scopes : List Bindings) (label : Label) (e : Expr) :
    Within (evalStep scopes below env label e) (evalStep scopes below' env label e) := by
  cases e with
  | literal l => exact .refl _
  | name id => exact .refl _
  | arrow params body => exact .refl _
  | template head parts => exact (evalParts_within hbelow env label 0 parts).map _
  | array items => exact (evalElements_within hbelow env (0 :: label) 0 items).map _
  | object entries => exact (evalEntries_within hbelow env label 0 [] entries).map _
  | member target key optional =>
    exact (evalMember_within hbelow env label target key optional).map _
  | call callee args =>
    cases callee with
    | member target key optional =>
      refine (evalMember_within hbelow env (0 :: label) target key optional).bind fun r => ?_
      cases r with
      | none => exact .refl _
      | some f => exact evalCall_within hbelow env label f args
    | _ => exact (hbelow _).bind fun f => evalCall_within hbelow env label f args
  | unary op operand =>
    have hplain : Within (do (← below (.evaluate env (0 :: label) operand)).unary op)
        (do (← below' (.evaluate env (0 :: label) operand)).unary op) :=
      (hbelow _).bind fun v => .refl _
    cases op with
    | typeof =>
      cases operand with
      | name id => exact .refl _
      | _ => exact hplain
    | _ => exact hplain
  | binary op left right =>
    exact (hbelow _).bind fun a => (hbelow _).bind fun b => .refl _
  | logical op left right =>
    refine (hbelow _).bind fun a => ?_
    have hnext : ∀ goOn : Bool, Within
        (if goOn then below (.evaluate env (1 :: label) right) else .ok a)
        (if goOn then below' (.evaluate env (1 :: label) right) else .ok a) := by
      intro goOn
      cases goOn with
      | true => exact hbelow _
      | false => exact .refl _
    cases op with
    | nullish => exact hnext _
    | _ => exact .after _ hnext
  | conditional test yes no =>
    refine (hbelow _).bind fun v => .after _ fun t => ?_
    split
    · exact hbelow _
    · exact hbelow _

omit env in
/-- One step of a call over steps with less room. -/
theorem applyStep_within (label : Label) (f : Value) (args : List Value) :
    Within (applyStep below label f args) (applyStep below' label f args) := by
  cases f with
  | method label' m receiver =>
    exact callMethod_within (fun i f args => hbelow (.apply (i :: 0 :: label) f args)) (1 :: label)
      m receiver args
  | closure label' params body locals home => exact hbelow _
  | _ => exact .refl _

end

/-- **An evaluation with less room ends at the limit or as one with more.** -/
theorem run_within (scopes : List Bindings) {n m : Nat} (h : n ≤ m) (job : Job) :
    Within (run scopes n job) (run scopes m job) := by
  induction n generalizing m job with
  | zero => exact .inr ⟨.tooDeep, rfl, rfl⟩
  | succ n ih =>
    obtain ⟨m, rfl⟩ : ∃ k, m = k + 1 := ⟨m - 1, by omega⟩
    have hbelow : ∀ job, Within (run scopes n job) (run scopes m job) :=
      ih (Nat.le_of_succ_le_succ h)
    cases job with
    | evaluate env label e => exact evalStep_within hbelow env scopes label e
    | apply label f args => exact applyStep_within hbelow label f args

/-- What has a value has it with more room too. -/
theorem run_mono {scopes : List Bindings} {n m : Nat} (h : n ≤ m) {job : Job} {v : Value}
    (hv : run scopes n job = .ok v) : run scopes m job = .ok v := by
  rcases run_within scopes h job with heq | ⟨fault, heq, -⟩
  · rw [← heq, hv]
  · rw [hv] at heq
    cases heq

/-! ## Sources -/

/-- The value of a source that may be nested so many levels. -/
def evaluateWithin (depth : Nat) (names : Bindings) (label : Label) (source : String) :
    Except Fault Value :=
  match whole (parseAt depth) source with
  | .error .tooDeep => .error (.about source .tooDeep)
  | .error fault => .error fault
  | .ok e => (run [names] depth (.evaluate ⟨[], 0⟩ label e)).mapError (report source)

theorem evaluate_eq_evaluateWithin (names : Bindings) (label : Label) (source : String) :
    evaluate names label source = evaluateWithin maxDepth names label source := rfl

theorem evaluateWithin_of_whole {d : Nat} {source : String} {e : Expr}
    (h : whole (parseAt d) source = .ok e) (names : Bindings) (label : Label) :
    evaluateWithin d names label source =
      (run [names] d (.evaluate ⟨[], 0⟩ label e)).mapError (report source) := by
  rw [evaluateWithin, h]

/-- A source with a value is an expression with that value. -/
theorem exists_of_evaluateWithin {d : Nat} {names : Bindings} {label : Label} {source : String}
    {v : Value} (h : evaluateWithin d names label source = .ok v) :
    ∃ e, whole (parseAt d) source = .ok e ∧
      run [names] d (.evaluate ⟨[], 0⟩ label e) = .ok v := by
  cases hread : whole (parseAt d) source with
  | error fault =>
    rw [evaluateWithin, hread] at h
    cases fault <;> cases h
  | ok e =>
    refine ⟨e, rfl, ?_⟩
    rw [evaluateWithin_of_whole hread] at h
    cases hrun : run [names] d (.evaluate ⟨[], 0⟩ label e) with
    | error fault =>
      rw [hrun] at h
      cases h
    | ok w =>
      rw [hrun] at h
      exact h

/-- More room changes nothing but where there was too little. -/
theorem evaluateWithin_within (names : Bindings) (label : Label) (source : String) {n m : Nat}
    (h : n ≤ m) :
    Within (evaluateWithin n names label source) (evaluateWithin m names label source) := by
  rcases whole_within (parseAt_within h) source with heq | ⟨fault, heq, hfault⟩
  · rw [evaluateWithin, evaluateWithin, heq]
    split
    · exact .refl _
    · exact .refl _
    · exact (run_within [names] h _).report source
  · refine .inr ?_
    rw [evaluateWithin, heq]
    split
    · exact ⟨_, rfl, rfl⟩
    · rename_i other hother
      cases hother
      exact ⟨_, rfl, hfault⟩
    · rename_i hok
      cases hok

end Expr
end Atoll
