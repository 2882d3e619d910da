import Atoll.Proofs.Twins
import Mathlib

/-!
# What an evaluation depends on

The value of an expression depends on the names that are free in it and on no others: where two
mappings agree on those names, an evaluation fails alike or gives the same value.  That the mappings
agree is said up to labels, as what is at a name may be two different lists of the same content; it
is enough that they are the same list wherever the one mapping has the same list.

* `EnvTwin` — two places of an evaluation with twins as local names.
* `lookup?_twin` — a name that is known gives twins in both.
* `Mirrors` — two workers do corresponding jobs with twins as results.
* `evalStep_twin`, `applyStep_twin` — one step over workers that mirror each other.
* `mirrors_run` — **jobs nested any number of levels give twins**, by induction on that number.
* `evaluate_of_agree` — **an evaluation depends on the free names only.**
-/

set_option autoImplicit false

namespace Atoll
namespace Expr

open Value (Twin Twins EntryTwins relabel)

variable {names : List String} {σ : Label → Label} {locals : Bindings} {args args' : List Value}
  {x : String}

/-! ## Names -/

/-- `Twin` on names with their values: the names are the same. -/
structure NameTwins (σ : Label → Label) (names : List String) (bs cs : Bindings) : Prop where
  eq_relabel : cs = bs.map (Prod.map id (relabel σ))
  isSealed : ∀ entry ∈ bs, entry.2.Sealed names

/-- Two places of an evaluation with the same local names, which have twins as values, in the
outermost scope. -/
structure EnvTwin (σ : Label → Label) (names : List String) (env env' : Env) : Prop where
  locals : NameTwins σ names env.locals env'.locals
  home_eq : env.home = 0
  home_eq' : env'.home = 0

theorem lookup_map (f : Value → Value) (names : Bindings) (x : String) :
    (names.map (Prod.map id f)).lookup x = (names.lookup x).map f := by
  induction names with
  | nil => rfl
  | cons entry names ih =>
    rw [List.map_cons, Prod.map, List.lookup_cons, List.lookup_cons, id, ih]
    split <;> rfl

theorem mem_of_lookup {names : Bindings} {v : Value} (h : names.lookup x = some v) :
    (x, v) ∈ names := by
  induction names with
  | nil => cases h
  | cons entry names ih =>
    rw [List.lookup_cons] at h
    split at h
    case h_1 hx =>
      cases h
      rw [eq_of_beq hx]
      exact .head _
    case h_2 => exact .tail _ (ih h)

/-- A name that is bound has a value. -/
theorem lookup_ne_none {names : Bindings} (h : x ∈ names.map Prod.fst) : names.lookup x ≠ none := by
  intro hnone
  obtain ⟨entry, hentry, rfl⟩ := List.mem_map.1 h
  simpa using List.lookup_eq_none_iff.1 hnone entry hentry

theorem global?_twin (x : String) : Option.Rel (Twin σ names) (global? x) (global? x) := by
  rw [global?]
  split
  · exact .some ⟨rfl, trivial⟩
  · cases [Library.math, .json, .array, .object].find? (·.name == x) with
    | none => exact .none
    | some l => exact .some ⟨rfl, trivial⟩

/-- The two mappings agree on some names, up to labels, and what is at them is sealed. -/
structure Agree (σ : Label → Label) (names : List String) (scope scope' : Bindings) : Prop where
  lookup_eq : ∀ x ∈ names, scope'.lookup x = (scope.lookup x).map (relabel σ)
  isSealed : ∀ x ∈ names, ∀ v, scope.lookup x = some v → v.Sealed names

section

variable {σ : Label → Label} {names : List String} {scope scope' : Bindings}

/-- A name that is local or agreed on gives twins. -/
theorem lookup?_twin (hagree : Agree σ names scope scope') {env env' : Env}
    (henv : EnvTwin σ names env env') (hx : x ∈ env.locals.map Prod.fst ∨ x ∈ names) :
    Option.Rel (Twin σ names) (env.lookup? [scope] x) (env'.lookup? [scope'] x) := by
  rw [Env.lookup?, Env.lookup?, Env.bound?, Env.bound?, henv.locals.eq_relabel, lookup_map]
  cases hlocal : env.locals.lookup x with
  | some v => exact .some ⟨rfl, henv.locals.isSealed _ (mem_of_lookup hlocal)⟩
  | none =>
    have hname : x ∈ names := hx.resolve_left fun h => lookup_ne_none h hlocal
    simp only [Option.map_none, henv.home_eq, henv.home_eq', List.getD_cons_zero,
      hagree.lookup_eq x hname]
    cases hscope : scope.lookup x with
    | some v => exact .some ⟨rfl, hagree.isSealed x hname v hscope⟩
    | none => exact global?_twin x

/-! ## Steps of an evaluation -/

/-- Two workers do corresponding jobs with twins as results. -/
structure Mirrors (σ : Label → Label) (names : List String) (below below' : Worker) : Prop where
  evaluate : ∀ {env env' : Env} {label : Label} {e : Expr}, Fixes σ label →
    EnvTwin σ names env env' → Known names env.locals e.free →
      Both (Twin σ names) (below (.evaluate env label e)) (below' (.evaluate env' label e))
  apply : ∀ {label : Label} {f f' : Value} {args args' : List Value}, Fixes σ label →
    Twin σ names f f' → Twins σ names args args' →
      Both (Twin σ names) (below (.apply label f args)) (below' (.apply label f' args'))

variable (hσ : Function.Injective σ) {below below' : Worker}
  (hbelow : Mirrors σ names below below') {env env' : Env} (henv : EnvTwin σ names env env')
  {label : Label} (hl : Fixes σ label)

section

include hbelow henv hl

theorem evalElements_twins (i : Nat) (items : List (Element Expr))
    (h : Known names env.locals (freeInElements items)) :
    Both (Twins σ names) (evalElements below env label i items)
      (evalElements below' env' label i items) := by
  induction items generalizing i with
  | nil => exact .nil
  | cons item items ih =>
    cases item with
    | single e =>
      obtain ⟨he, hitems⟩ := known_append.1 h
      exact (hbelow.evaluate (hl.cons i) henv he).bind fun v w hv =>
        (ih (i + 1) hitems).bind fun vs ws hvs => .cons hv hvs
    | spread e =>
      obtain ⟨he, hitems⟩ := known_append.1 h
      exact (hbelow.evaluate (hl.cons i) henv he).bind fun v w hv =>
        (Value.itemsOf_twins hv).bind fun inner inner' hinner =>
          (ih (i + 1) hitems).bind fun vs ws hvs => hinner.append hvs

theorem evalParts_eq (i : Nat) (parts : List (Expr × String))
    (h : Known names env.locals (freeInParts parts)) :
    Both Eq (evalParts below env label i parts) (evalParts below' env' label i parts) := by
  induction parts generalizing i with
  | nil => exact rfl
  | cons part parts ih =>
    obtain ⟨he, hparts⟩ := known_append.1 h
    refine (hbelow.evaluate (hl.cons i) henv he).bind fun v w hv => ?_
    rw [hv.eq_relabel, Value.toText_relabel]
    refine .after _ fun s => (ih (i + 1) hparts).bind fun t t' ht => ?_
    exact congrArg (s ++ part.2 ++ ·) ht

theorem evalMember_twin (target key : Expr) (optional : Bool)
    (h : Known names env.locals (target.free ++ key.free)) :
    Both (Option.Rel (Twin σ names)) (evalMember below env label target key optional)
      (evalMember below' env' label target key optional) := by
  obtain ⟨htarget, hkey⟩ := known_append.1 h
  refine (hbelow.evaluate (hl.cons 0) henv htarget).bind fun v w hv => ?_
  rw [hv.eq_relabel, Value.isNothing_relabel, ← hv.eq_relabel]
  split
  · exact .none
  · exact (hbelow.evaluate (hl.cons 1) henv hkey).bind fun k k' hk =>
      (Value.member_twin (hl.cons 2).self hv hk).map fun r r' hr => .some hr

omit henv in
/-- Whatever goes wrong in a call is reported alike. -/
theorem guardCall_twin {f f' : Value} (hf : Twin σ names f f') (hargs : Twins σ names args args') :
    Both (Twin σ names) (guardCall below label f args) (guardCall below' label f' args') := by
  have hcall := hbelow.apply (hl.cons 2) hf hargs
  rw [guardCall, guardCall]
  generalize below (.apply (2 :: label) f args) = x at hcall ⊢
  generalize below' (.apply (2 :: label) f' args') = y at hcall ⊢
  cases x <;> cases y
  case ok.ok => exact hcall
  case error.error fault fault' =>
    obtain rfl : fault = fault' := hcall
    cases fault <;> exact rfl
  all_goals cases hcall

theorem evalCall_twin {f f' : Value} (hf : Twin σ names f f') (args : List (Element Expr))
    (h : Known names env.locals (freeInElements args)) :
    Both (Twin σ names) (evalCall below env label f args) (evalCall below' env' label f' args) :=
  (evalElements_twins hbelow henv (hl.cons 1) 0 args h).bind fun _ _ hargs =>
    guardCall_twin hbelow hl hf hargs

include hσ

theorem evalEntries_twins (i : Nat) {done done' : Entries} (hdone : EntryTwins σ names done done')
    (entries : List (Entry Expr)) (h : Known names env.locals (freeInEntries entries)) :
    Both (EntryTwins σ names) (evalEntries below env label i done entries)
      (evalEntries below' env' label i done' entries) := by
  induction entries generalizing i done done' with
  | nil => exact hdone
  | cons entry entries ih =>
    cases entry with
    | pair key value =>
      obtain ⟨hpair, hentries⟩ := known_append.1 h
      obtain ⟨hkey, hvalue⟩ := known_append.1 hpair
      refine (hbelow.evaluate ((hl.cons 0).cons i) henv hvalue).bind fun v w hv => ?_
      refine (hbelow.evaluate ((hl.cons 1).cons i) henv hkey).bind fun k k' hk => ?_
      rw [hk.eq_relabel, Value.toText_relabel]
      exact .after _ fun s =>
        ih (i + 1) (Value.set_twins hσ (Twin.string s) hv hdone) hentries
    | spread e =>
      obtain ⟨he, hentries⟩ := known_append.1 h
      exact (hbelow.evaluate ((hl.cons 0).cons i) henv he).bind fun v w hv =>
        ih (i + 1) (Value.setAll_twins hσ hdone (Value.spreadEntries_twins hv)) hentries

/-- One step of an evaluation gives twins if the steps below it do. -/
theorem evalStep_twin (hagree : Agree σ names scope scope') (e : Expr)
    (h : Known names env.locals e.free) :
    Both (Twin σ names) (evalStep [scope] below env label e)
      (evalStep [scope'] below' env' label e) := by
  cases e with
  | literal l => cases l <;> exact ⟨rfl, trivial⟩
  | name id =>
    have hid := lookup?_twin hagree henv (h id (.head _))
    rw [evalStep, evalStep]
    generalize env.lookup? [scope] id = r at hid ⊢
    generalize env'.lookup? [scope'] id = r' at hid ⊢
    cases hid with
    | none => exact rfl
    | some hv => exact hv
  | template head parts =>
    exact (evalParts_eq hbelow henv hl 0 parts h).map fun s t hst =>
      hst ▸ Twin.string (head ++ s)
  | array items =>
    exact (evalElements_twins hbelow henv (hl.cons 0) 0 items h).map fun vs ws hvs =>
      hvs.array hl.self
  | object entries =>
    exact (evalEntries_twins hσ hbelow henv hl 0 .nil entries h).map fun es fs hes =>
      hes.object hl.self
  | member target key optional =>
    refine (evalMember_twin hbelow henv hl target key optional h).map fun r r' hr => ?_
    cases hr with
    | none => exact ⟨rfl, trivial⟩
    | some hv => exact hv
  | call callee args =>
    obtain ⟨hcallee, hargs⟩ := known_append.1 h
    cases callee with
    | member target key optional =>
      refine (evalMember_twin hbelow henv (hl.cons 0) target key optional hcallee).bind
        fun r r' hr => ?_
      cases hr with
      | none => exact ⟨rfl, trivial⟩
      | some hf => exact evalCall_twin hbelow henv hl hf args hargs
    | _ =>
      exact (hbelow.evaluate (hl.cons 0) henv hcallee).bind fun f f' hf =>
        evalCall_twin hbelow henv hl hf args hargs
  | unary op operand =>
    have hplain : Both (Twin σ names)
        (do (← below (.evaluate env (0 :: label) operand)).unary op)
        (do (← below' (.evaluate env' (0 :: label) operand)).unary op) :=
      (hbelow.evaluate (e := operand) (hl.cons 0) henv h).bind fun v w hv =>
        Value.unary_twin op hv
    cases op with
    | typeof =>
      cases operand with
      | name id =>
        -- a name that nothing defines has a type all the same
        have hid := lookup?_twin hagree henv (h id (.head _))
        rw [evalStep, evalStep]
        generalize env.lookup? [scope] id = r at hid ⊢
        generalize env'.lookup? [scope'] id = r' at hid ⊢
        cases hid with
        | none => exact ⟨rfl, trivial⟩
        | some hv =>
          simp only [hv.eq_relabel, Value.typeName_relabel]
          exact Twin.string _
      | _ => exact hplain
    | _ => exact hplain
  | binary op left right =>
    obtain ⟨hleft, hright⟩ := known_append.1 h
    exact (hbelow.evaluate (hl.cons 0) henv hleft).bind fun a a' ha =>
      (hbelow.evaluate (hl.cons 1) henv hright).bind fun b b' hb => Value.binary_twin hσ op ha hb
  | logical op left right =>
    obtain ⟨hleft, hright⟩ := known_append.1 h
    refine (hbelow.evaluate (hl.cons 0) henv hleft).bind fun a a' ha => ?_
    have hnext : ∀ goOn : Bool, Both (Twin σ names)
        (if goOn then below (.evaluate env (1 :: label) right) else .ok a)
        (if goOn then below' (.evaluate env' (1 :: label) right) else .ok a') := by
      intro goOn
      cases goOn with
      | true => exact hbelow.evaluate (hl.cons 1) henv hright
      | false => exact ha
    have htruthy : a'.truthy = a.truthy := by rw [ha.eq_relabel, Value.truthy_relabel]
    have hnothing : a'.isNothing = a.isNothing := by rw [ha.eq_relabel, Value.isNothing_relabel]
    cases op with
    | and => simp only [htruthy]; exact .after _ hnext
    | or => simp only [htruthy]; exact .after _ hnext
    | nullish => simp only [hnothing]; exact hnext _
  | conditional test yes no =>
    obtain ⟨hrest, hno⟩ := known_append.1 h
    obtain ⟨htest, hyes⟩ := known_append.1 hrest
    refine (hbelow.evaluate (hl.cons 0) henv htest).bind fun v w hv => ?_
    rw [hv.eq_relabel, Value.truthy_relabel]
    refine .after _ fun t => ?_
    split
    · exact hbelow.evaluate (hl.cons 1) henv hyes
    · exact hbelow.evaluate (hl.cons 2) henv hno
  | arrow params body =>
    refine Twin.mk ?_ ⟨h, Value.namesSealed_iff.2 henv.locals.isSealed, henv.home_eq⟩
    rw [relabel, hl.self, Value.relabelNames_eq_map, henv.locals.eq_relabel, henv.home_eq,
      henv.home_eq']

end

/-! ## Calls -/

theorem bindParams_fst (params : List String) (args : List Value) :
    (bindParams params args).map Prod.fst = params := by
  induction params generalizing args with
  | nil => rfl
  | cons p ps ih => rw [bindParams, List.map_cons, ih]

/-- Parameters get twins from twins. -/
theorem bindParams_twins (params : List String) (h : Twins σ names args args') :
    NameTwins σ names (bindParams params args) (bindParams params args') := by
  obtain ⟨rfl, hargs⟩ := h
  induction params generalizing args with
  | nil => exact ⟨rfl, by simp [bindParams]⟩
  | cons p ps ih =>
    cases args with
    | nil =>
      obtain ⟨heq, hsealed⟩ := ih hargs
      exact ⟨congrArg ((p, Value.undefined) :: ·) heq, List.forall_mem_cons.2 ⟨trivial, hsealed⟩⟩
    | cons v vs =>
      obtain ⟨hv, hvs⟩ := List.forall_mem_cons.1 hargs
      obtain ⟨heq, hsealed⟩ := ih hvs
      exact ⟨congrArg ((p, v.relabel σ) :: ·) heq, List.forall_mem_cons.2 ⟨hv, hsealed⟩⟩

/-- A function runs among its parameters and the names it keeps. -/
theorem closureEnv_twin (params : List String) (hargs : Twins σ names args args')
    (hlocals : Value.NamesSealed names locals) :
    EnvTwin σ names ⟨(bindParams params args).reverse ++ locals, 0⟩
      ⟨(bindParams params args').reverse ++ Value.relabelNames σ locals, 0⟩ := by
  have hparams := bindParams_twins params hargs
  refine ⟨⟨?_, List.forall_mem_append.2 ⟨?_, Value.namesSealed_iff.1 hlocals⟩⟩, rfl, rfl⟩
  · simp only [hparams.eq_relabel, Value.relabelNames_eq_map, List.map_append, List.map_reverse]
  · exact fun entry hentry => hparams.isSealed entry (List.mem_reverse.1 hentry)

/-- What the body of a function uses is a parameter or known to the function. -/
theorem known_body {params : List String} {body : Expr}
    (h : Known names locals (Expr.arrow params body).free) (args : List Value) :
    Known names ((bindParams params args).reverse ++ locals) body.free := by
  intro x hx
  rw [List.map_append, List.map_reverse, bindParams_fst, List.mem_append, List.mem_reverse]
  by_cases hparam : x ∈ params
  · exact .inl (.inl hparam)
  · have hfree : x ∈ (Expr.arrow params body).free :=
      List.mem_filter.2 ⟨hx, by simpa using hparam⟩
    exact (h x hfree).imp_left .inr

section

include hσ hbelow hl

/-- One step of a call gives twins if the steps below it do. -/
theorem applyStep_twin {f f' : Value} (hf : Twin σ names f f') (hargs : Twins σ names args args') :
    Both (Twin σ names) (applyStep below label f args) (applyStep below' label f' args') := by
  obtain ⟨rfl, hsealed⟩ := hf
  cases f with
  | builtin f => exact Value.callBuiltin_twin hl f hargs
  | method label' m receiver =>
    have hcall : ∀ i f f' args args', Twin σ names f f' → Twins σ names args args' →
        Both (Twin σ names) (below (.apply (i :: 0 :: label) f args))
          (below' (.apply (i :: 0 :: label) f' args')) :=
      fun i f f' args args' => hbelow.apply ((hl.cons 0).cons i)
    have hreceiver : Twin σ names receiver (receiver.relabel σ) := ⟨rfl, hsealed⟩
    exact Value.callMethod_twin hσ hcall (hl.cons 1).self m hreceiver hargs
  | closure label' params body locals home =>
    obtain ⟨hknown, hlocals, rfl⟩ := hsealed
    exact hbelow.evaluate hl (closureEnv_twin params hargs hlocals) (known_body hknown args)
  | _ => exact rfl

end

include hσ in
/-- **Jobs nested any number of levels give twins.** -/
theorem mirrors_run (hagree : Agree σ names scope scope') (depth : Nat) :
    Mirrors σ names (run [scope] depth) (run [scope'] depth) := by
  induction depth with
  | zero => exact ⟨fun _ _ _ => rfl, fun _ _ _ => rfl⟩
  | succ depth ih =>
    exact ⟨fun hl henv hknown => evalStep_twin hσ ih henv hl hagree _ hknown,
      fun hl hf hargs => applyStep_twin hσ ih hl hf hargs⟩

end

/-! ## The free names decide -/

/-- Twins as results are the results with other labels. -/
theorem eq_map_of_twin {x y : Except Fault Value}
    (h : Both (Twin σ names) x y) : y = x.map (relabel σ) := by
  cases x <;> cases y
  case ok.ok => exact congrArg Except.ok h.eq_relabel
  case error.error => exact congrArg Except.error h.symm
  all_goals cases h

/-- The free names of the expression that a source spells.  A source that spells none has none. -/
def namesIn (source : String) : List String :=
  match parse source with
  | .ok e => e.free
  | .error _ => []

/-- **An evaluation depends on the free names only.**  Let two mappings agree on the free names of a
source: the same ones are there, with no function in their values, and what the second has is what
the first has with other labels.  If different labels stay different, and the labels of what is made
in the evaluation stay as they are, then the evaluation fails alike with both or gives the same
value with other labels, and what a placeholder shows of it is the same.  A function in the value
has the same body and the same local names; it is only in looking up its other names that the
mapping comes in. -/
theorem evaluate_of_agree {σ : Label → Label} (hσ : Function.Injective σ) {label : Label}
    (hlabel : Fixes σ label) {scope scope' : Bindings} {source : String}
    (hplain : ∀ x ∈ namesIn source, ∀ v ∈ scope.lookup x, v.isPlain = true)
    (hagree : ∀ x ∈ namesIn source, scope'.lookup x = (scope.lookup x).map (relabel σ)) :
    evaluate scope' label source = (evaluate scope label source).map (relabel σ) ∧
      (do (← evaluate scope' label source).render) =
        (do (← evaluate scope label source).render) := by
  have hvalue : evaluate scope' label source = (evaluate scope label source).map (relabel σ) := by
    rw [evaluate, evaluate, evaluateIn, evaluateIn]
    cases hparse : parse source with
    | error fault => cases fault <;> rfl
    | ok e =>
      have hfree : namesIn source = e.free := by rw [namesIn, hparse]
      rw [hfree] at hplain hagree
      have hnames : Agree σ e.free scope scope' :=
        ⟨hagree, fun x hx v hv => Value.sealed_of_isPlain v (hplain x hx v hv)⟩
      have hstart : EnvTwin σ e.free ⟨[], 0⟩ ⟨[], 0⟩ := ⟨⟨rfl, by simp⟩, rfl, rfl⟩
      have hrun := eq_map_of_twin ((mirrors_run hσ hnames maxDepth).evaluate hlabel hstart
        fun x hx => .inr hx)
      simp only [hrun]
      cases run [scope] maxDepth (.evaluate ⟨[], 0⟩ label e) <;> rfl
  refine ⟨hvalue, ?_⟩
  rw [hvalue, bind_map]
  simp only [Value.render_relabel]

/-- A list that stands at two names, another list in its place, and names that nothing uses. -/
theorem evaluate_of_agree_shared :
    namesIn "rows.map(r => [r, r === row])" = ["rows", "row"] ∧
    evaluate [("n", .builtin .abs), ("rows", .array [3] [.array [1] [], .array [4] []]),
      ("row", .array [1] [])] [0] "rows.map(r => [r, r === row])" =
      .ok (.array [1, 2, 0] [.array [0, 0, 2, 0] [.array [1] [], .bool true],
        .array [1, 0, 2, 0] [.array [4] [], .bool false]]) ∧
    evaluate [("row", .array [2] []), ("rows", .array [3] [.array [2] [], .array [4] []]),
      ("r", .null)] [0] "rows.map(r => [r, r === row])" =
      .ok (.array [1, 2, 0] [.array [0, 0, 2, 0] [.array [2] [], .bool true],
        .array [1, 0, 2, 0] [.array [4] [], .bool false]]) := by
  have hparse : parse "rows.map(r => [r, r === row])" =
      .ok (.call (.member (.name "rows") (.literal (.string "map")) false)
        [.single (.arrow ["r"] (.array [.single (.name "r"),
          .single (.binary .strictEq (.name "r") (.name "row"))]))]) := whole_eq_ok (by cbv) rfl
  have hnames : namesIn "rows.map(r => [r, r === row])" = ["rows", "row"] := by
    rw [namesIn, hparse]
    rfl
  have hfirst : evaluate [("n", .builtin .abs),
      ("rows", .array [3] [.array [1] [], .array [4] []]), ("row", .array [1] [])] [0]
      "rows.map(r => [r, r === row])" =
      .ok (.array [1, 2, 0] [.array [0, 0, 2, 0] [.array [1] [], .bool true],
        .array [1, 0, 2, 0] [.array [4] [], .bool false]]) := by
    rw [evaluate, evaluateIn, hparse]
    rfl
  have hlabel : Fixes (Equiv.swap [1] [2]) [0] := by
    intro l hl
    apply Equiv.swap_apply_of_ne_of_ne
    · rintro rfl
      exact absurd hl (by decide)
    · rintro rfl
      exact absurd hl (by decide)
  have hused : ∀ x ∈ namesIn "rows.map(r => [r, r === row])", x = "rows" ∨ x = "row" := by
    intro x hx
    simpa [hnames] using hx
  refine ⟨hnames, hfirst, ?_⟩
  refine (evaluate_of_agree (Equiv.swap [1] [2]).injective hlabel (fun x hx v hv => ?_)
    fun x hx => ?_).1.trans (congrArg (Except.map (relabel (Equiv.swap [1] [2]))) hfirst)
  · rcases hused x hx with rfl | rfl <;> cases hv <;> rfl
  · rcases hused x hx with rfl | rfl <;> rfl

end Expr
end Atoll
