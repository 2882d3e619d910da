import Atoll.Proofs.Depth
import Atoll.Proofs.Outcome
import Mathlib

/-!
# Optional access to nothing

An optional access to null or undefined is undefined, and its key is not evaluated; a call right
behind it is left out too.  That is all there is to it: each link of a chain is evaluated on its
own, so whatever else stands behind an optional one meets undefined and fails.  And a call is read
the same whether it is optional or not.

* `Link`, `followedBy` — the accesses and calls behind an expression, and the tree they make.
* `Spelled`, `suffixes_spelled` — how they are written, and that they are read as that tree.
* `isGuarded` — the chains in which every access is optional and every call is behind an access.
* `run_followedBy` — **a guarded chain behind nothing is undefined**, by recursion on the chain.
* `Stuck`, `stuck_followedBy` — every other chain fails, with whatever room there is.
* `evaluate_followedBy` — both together.
-/

set_option autoImplicit false

namespace Atoll
namespace Expr

variable {v : Value}

/-! ## Chains -/

/-- What may stand behind an expression: an access under a key, or a call. -/
inductive Link where
  | member (key : Expr) (optional : Bool)
  | call (args : List (Element Expr)) (optional : Bool)

variable {links : List Link}

/-- An expression with a link behind it.  The tree does not keep whether a call is optional. -/
def linked (e : Expr) : Link → Expr
  | .member key optional => .member e key optional
  | .call args _ => .call e args

/-- An expression with a chain behind it. -/
def followedBy (e : Expr) (links : List Link) : Expr :=
  links.foldl linked e

section

variable (source : String) (expression : Parser Expr)

/-- The tokens of a chain, and what is behind them. -/
inductive Spelled : List Link → List Token → List Token → Prop where
  | done (ts : List Token) : Spelled [] ts ts
  | name {id : String} {o o' : Nat} {links : List Link} {ts rest : List Token}
      (h : Spelled links ts rest) :
      Spelled (.member (.literal (.string id)) false :: links)
        (⟨.symbol .dot, o⟩ :: ⟨.name id, o'⟩ :: ts) rest
  | optionalName {id : String} {o o' : Nat} {links : List Link} {ts rest : List Token}
      (h : Spelled links ts rest) :
      Spelled (.member (.literal (.string id)) true :: links)
        (⟨.symbol .optional, o⟩ :: ⟨.name id, o'⟩ :: ts) rest
  | key {key : Expr} {o : Nat} {links : List Link} {inner ts rest : List Token}
      (hkey : keyInBrackets source expression inner = .ok (key, ts)) (h : Spelled links ts rest) :
      Spelled (.member key false :: links) (⟨.symbol .squareOpen, o⟩ :: inner) rest
  | optionalKey {key : Expr} {o o' : Nat} {links : List Link} {inner ts rest : List Token}
      (hkey : keyInBrackets source expression inner = .ok (key, ts)) (h : Spelled links ts rest) :
      Spelled (.member key true :: links)
        (⟨.symbol .optional, o⟩ :: ⟨.symbol .squareOpen, o'⟩ :: inner) rest
  | call {args : List (Element Expr)} {o : Nat} {links : List Link} {inner ts rest : List Token}
      (hargs : elements source expression .parenClose inner = .ok (args, ts))
      (h : Spelled links ts rest) :
      Spelled (.call args false :: links) (⟨.symbol .parenOpen, o⟩ :: inner) rest
  | optionalCall {args : List (Element Expr)} {o o' : Nat} {links : List Link}
      {inner ts rest : List Token}
      (hargs : elements source expression .parenClose inner = .ok (args, ts))
      (h : Spelled links ts rest) :
      Spelled (.call args true :: links)
        (⟨.symbol .optional, o⟩ :: ⟨.symbol .parenOpen, o'⟩ :: inner) rest

/-- A chain behind an expression is read as the tree that it makes, by induction on its tokens. -/
theorem suffixes_spelled {ts rest : List Token} (h : Spelled source expression links ts rest)
    (e : Expr) (fuel : Nat) :
    suffixes source expression (fuel + links.length) e ts =
      suffixes source expression fuel (e.followedBy links) rest := by
  induction h generalizing e with
  | done ts => rfl
  | name _ ih => exact ih _
  | optionalName _ ih => exact ih _
  | key hkey _ ih => rw [List.length_cons, ← Nat.add_assoc, suffixes, hkey]; exact ih _
  | optionalKey hkey _ ih => rw [List.length_cons, ← Nat.add_assoc, suffixes, hkey]; exact ih _
  | call hargs _ ih => rw [List.length_cons, ← Nat.add_assoc, suffixes, hargs]; exact ih _
  | optionalCall hargs _ ih => rw [List.length_cons, ← Nat.add_assoc, suffixes, hargs]; exact ih _

end

/-- Whether every access of a chain is optional, and every call stands right behind an access. -/
def isGuarded : List Link → Bool
  | [] => true
  | .member _ true :: .call _ _ :: links => isGuarded links
  | .member _ true :: links => isGuarded links
  | _ => false

/-! ## Guarded chains -/

section

variable {scopes : List Bindings} {env : Env} {label : Label} {d : Nat} {e : Expr} {v : Value}

theorem run_optional (key : Expr)
    (hv : run scopes d (.evaluate env (0 :: label) e) = .ok v) (hnothing : v.isNothing = true) :
    run scopes (d + 1) (.evaluate env label (.member e key true)) = .ok .undefined := by
  rw [run, evalStep, evalMember, hv]
  show ((if true && v.isNothing then _ else _ : Except Fault (Option Value))).map _ = _
  rw [hnothing]
  rfl

theorem run_call_optional (key : Expr) (args : List (Element Expr))
    (hv : run scopes d (.evaluate env (0 :: 0 :: label) e) = .ok v)
    (hnothing : v.isNothing = true) :
    run scopes (d + 1) (.evaluate env label (.call (.member e key true) args)) =
      .ok .undefined := by
  rw [run, evalStep, evalMember, hv]
  show ((if true && v.isNothing then _ else _ : Except Fault (Option Value))) >>= _ = _
  rw [hnothing]
  rfl

/-- **A guarded chain behind nothing is undefined**, by recursion on the chain: each part of it is
undefined where the next one starts. -/
theorem run_followedBy (h : isGuarded links = true)
    (hv : run scopes d (.evaluate env (List.replicate links.length 0 ++ label) e) = .ok v)
    (hnothing : v.isNothing = true) :
    run scopes (d + links.length) (.evaluate env label (e.followedBy links)) =
      .ok (if links.isEmpty then v else .undefined) := by
  fun_induction isGuarded links generalizing d e v with
  | case1 => exact hv
  | case2 key args optional links ih =>
    have hcall := run_call_optional key args hv hnothing
    have hrest := ih h (run_mono (Nat.le_succ (d + 1)) hcall) rfl
    rw [ite_self] at hrest
    rw [List.length_cons, List.length_cons, Nat.add_comm links.length, Nat.add_comm _ 1,
      ← Nat.add_assoc, ← Nat.add_assoc]
    exact hrest
  | case3 key links hlinks ih =>
    have hrest := ih h (run_optional key hv hnothing) rfl
    rw [ite_self] at hrest
    rw [List.length_cons, Nat.add_comm links.length, ← Nat.add_assoc]
    exact hrest
  | case4 => cases h

end

/-! ## Other chains -/

/-- With whatever room there is, the expression is nothing or fails. -/
def Idle (scopes : List Bindings) (env : Env) (label : Label) (e : Expr) : Prop :=
  ∀ d ≤ maxDepth, Ends (fun _ => True) (fun v => v.isNothing = true)
    (run scopes d (.evaluate env label e))

/-- With whatever room there is, the expression fails. -/
def Stuck (scopes : List Bindings) (env : Env) (label : Label) (e : Expr) : Prop :=
  ∀ d ≤ maxDepth, Ends (fun _ => True) (fun _ => False) (run scopes d (.evaluate env label e))

/-- Whether an expression is an optional access. -/
def isOptional : Expr → Bool
  | .member _ _ optional => optional
  | _ => false

section

variable {scopes : List Bindings} {env : Env} {label : Label} {e key : Expr}

theorem idle_of_run (hv : run scopes maxDepth (.evaluate env label e) = .ok v)
    (hnothing : v.isNothing = true) : Idle scopes env label e := by
  intro d hd
  rcases run_within scopes hd (.evaluate env label e) with heq | ⟨fault, heq, -⟩
  · rw [heq, hv]
    exact hnothing
  · rw [heq]
    trivial

/-- An optional access to nothing is `none`, whatever the key is. -/
theorem evalMember_optional {below : Worker}
    (h : Ends (fun _ => True) (fun v => v.isNothing = true)
      (below (.evaluate env (0 :: label) e))) :
    Ends (fun _ => True) (fun r => r = none) (evalMember below env label e key true) := by
  refine h.bind fun v hv => ?_
  rw [hv]
  exact rfl

theorem Idle.optional (h : Idle scopes env (0 :: label) e) :
    Idle scopes env label (.member e key true) := by
  intro d hd
  obtain _ | d := d
  · trivial
  refine (evalMember_optional (h d (Nat.le_of_succ_le hd))).map fun r hr => ?_
  rw [hr]
  rfl

theorem Idle.call_optional (h : Idle scopes env (0 :: 0 :: label) e)
    (args : List (Element Expr)) :
    Idle scopes env label (.call (.member e key true) args) := by
  intro d hd
  obtain _ | d := d
  · trivial
  refine (evalMember_optional (h d (Nat.le_of_succ_le hd))).bind fun r hr => ?_
  rw [hr]
  exact rfl

/-- A computation that is followed by a failure fails. -/
theorem ends_bind_stuck {α β : Type} (x : Except Fault α) {f : α → Except Fault β}
    (hf : ∀ a, Ends (fun _ => True) (fun _ => False) (f a)) :
    Ends (fun _ => True) (fun _ => False) (x >>= f) := by
  cases x with
  | error fault => trivial
  | ok a => exact hf a

/-- Nothing has no members. -/
theorem member_of_isNothing (h : v.isNothing = true) (label : Label) (k : Value) :
    Ends (fun _ => True) (fun _ => False) (v.member label k) := by
  cases v <;> cases h <;> exact ends_bind_stuck k.toText fun _ => trivial

/-- Nothing cannot be called. -/
theorem evalCall_of_isNothing (h : v.isNothing = true) (d : Nat) (label : Label)
    (args : List (Element Expr)) :
    Ends (fun _ => True) (fun _ => False) (evalCall (run scopes d) env label v args) := by
  refine ends_bind_stuck _ fun values => ?_
  obtain _ | d := d
  · trivial
  · cases v <;> cases h <;> trivial

theorem Idle.stuck_member (h : Idle scopes env (0 :: label) e) :
    Stuck scopes env label (.member e key false) := by
  intro d hd
  obtain _ | d := d
  · trivial
  refine Ends.map (R := fun _ => False) ?_ fun _ hr => hr
  refine (h d (Nat.le_of_succ_le hd)).bind fun v hv => ?_
  rw [Bool.false_and, if_neg Bool.false_ne_true]
  exact ends_bind_stuck _ fun k => (member_of_isNothing hv (2 :: label) k).map fun _ hr => hr

/-- A plain access has a value or fails. -/
theorem exists_evalMember (below : Worker) (env : Env) (label : Label) (target key : Expr) :
    ∃ x : Except Fault Value, evalMember below env label target key false = x.map some := by
  refine ⟨below (.evaluate env (0 :: label) target) >>= fun v =>
    below (.evaluate env (1 :: label) key) >>= fun k => v.member (2 :: label) k, ?_⟩
  rw [evalMember]
  cases below (.evaluate env (0 :: label) target) with
  | error fault => rfl
  | ok v => cases below (.evaluate env (1 :: label) key) <;> rfl

theorem Idle.stuck_call (h : Idle scopes env (0 :: label) e) (he : e.isOptional = false)
    (args : List (Element Expr)) : Stuck scopes env label (.call e args) := by
  intro d hd
  obtain _ | d := d
  · trivial
  cases e with
  | member target k optional =>
    obtain rfl : optional = false := he
    have hcallee := h (d + 1) hd
    obtain ⟨x, hx⟩ := exists_evalMember (run scopes d) env (0 :: label) target k
    rw [run, evalStep, hx] at hcallee
    rw [run, evalStep, hx]
    cases x with
    | error fault => trivial
    | ok f => exact evalCall_of_isNothing hcallee d label args
  | _ =>
    exact (h d (Nat.le_of_succ_le hd)).bind fun f hf => evalCall_of_isNothing hf d label args

/-- What fails still fails with a link behind it. -/
theorem Stuck.linked (h : Stuck scopes env (0 :: label) e) (link : Link) :
    Stuck scopes env label (e.linked link) := by
  intro d hd
  obtain _ | d := d
  · trivial
  have hbelow := h d (Nat.le_of_succ_le hd)
  cases link with
  | member key optional =>
    refine Ends.map (R := fun _ => False) ?_ fun _ hr => hr
    exact hbelow.bind fun _ hv => hv.elim
  | call args optional =>
    cases e with
    | member target k optional =>
      have hcallee := h (d + 1) hd
      rw [run, evalStep] at hcallee
      rw [Expr.linked, run, evalStep]
      cases hmember : evalMember (run scopes d) env (0 :: label) target k optional with
      | error fault => trivial
      | ok r =>
        rw [hmember] at hcallee
        exact hcallee.elim
    | _ => exact hbelow.bind fun _ hf => hf.elim

theorem Stuck.followedBy (h : Stuck scopes env (List.replicate links.length 0 ++ label) e) :
    Stuck scopes env label (e.followedBy links) := by
  induction links generalizing e with
  | nil => exact h
  | cons link links ih => exact ih (h.linked link)

/-- **Every other chain behind nothing fails**, by recursion on the chain: it is undefined up to
the first link that is not guarded, and fails from there on. -/
theorem stuck_followedBy (h : isGuarded links = false)
    (he : Idle scopes env (List.replicate links.length 0 ++ label) e)
    (hcall : ∀ args optional rest, links = .call args optional :: rest → e.isOptional = false) :
    Stuck scopes env label (e.followedBy links) := by
  fun_induction isGuarded links generalizing e with
  | case1 => cases h
  | case2 key args optional links ih => exact ih h (he.call_optional args) fun _ _ _ _ => rfl
  | case3 key links hlinks ih =>
    exact ih h he.optional fun args optional rest hrest => (hlinks args optional rest hrest).elim
  | case4 links hempty hpair hoptional =>
    obtain _ | ⟨link, rest⟩ := links
    · exact (hempty rfl).elim
    cases link with
    | member key optional =>
      cases optional with
      | true => exact (hoptional key rest rfl).elim
      | false => exact he.stuck_member.followedBy
    | call args optional => exact (he.stuck_call (hcall args optional rest rfl) args).followedBy

end

/-- **Optional access to nothing, and what becomes of a chain behind it.**  Let an expression be
null or undefined, and let a chain of accesses and calls be read behind it.  If every access of the
chain is optional and every call stands right behind an access, the whole is undefined, whatever the
keys and arguments are; only where the expression needs all the room there is to nest it may end at
the limit instead.  Every other chain fails, unless it is a call behind an access that was optional
itself. -/
theorem evaluate_followedBy (names : Bindings) (label : Label) (e : Expr) (links : List Link) :
    (∀ source expression ts rest fuel, Spelled source expression links ts rest →
      suffixes source expression (fuel + links.length) e ts =
        suffixes source expression fuel (e.followedBy links) rest) ∧
    ∀ (inner source : String) (v : Value), parse inner = .ok e →
      evaluate names (List.replicate links.length 0 ++ label) inner = .ok v →
      v.isNothing = true → links ≠ [] → parse source = .ok (e.followedBy links) →
      (isGuarded links = true → Within (evaluate names label source) (.ok .undefined)) ∧
      (isGuarded links = true → run [names] (maxDepth - links.length)
        (.evaluate ⟨[], 0⟩ (List.replicate links.length 0 ++ label) e) = .ok v →
          evaluate names label source = .ok .undefined) ∧
      (isGuarded links = false →
        (∀ args optional rest, links = .call args optional :: rest → e.isOptional = false) →
          ∃ fault, evaluate names label source = .error fault) := by
  refine ⟨fun source expression ts rest fuel h => suffixes_spelled source expression h e fuel, ?_⟩
  intro inner source v hinner hvalue hnothing hlinks hsource
  obtain ⟨e', hread, hrun⟩ := exists_of_evaluateWithin hvalue
  obtain rfl : e' = e := Except.ok.inj (hread.symm.trans hinner)
  have hchain := evaluateWithin_of_whole hsource names label
  have hempty : links.isEmpty = false := by simpa using hlinks
  rw [evaluate_eq_evaluateWithin, hchain]
  refine ⟨fun h => ?_, fun h hroom => ?_, fun h hcall => ?_⟩
  · -- behind the expression there is room for the chain, and more room changes nothing else
    have hmore := run_followedBy h hrun hnothing
    rw [hempty] at hmore
    have hless := (run_within [names] (Nat.le_add_right maxDepth links.length)
      (.evaluate ⟨[], 0⟩ label (e'.followedBy links))).report source
    rwa [hmore] at hless
  · have hlength : links.length ≤ maxDepth := by
      by_contra hlong
      rw [Nat.sub_eq_zero_of_le (by omega)] at hroom
      cases hroom
    have hexact := run_followedBy h hroom hnothing
    rw [Nat.sub_add_cancel hlength, hempty] at hexact
    rw [hexact]
    rfl
  · have hfails := stuck_followedBy h (idle_of_run hrun hnothing) hcall maxDepth le_rfl
    cases hend : run [names] maxDepth (.evaluate ⟨[], 0⟩ label (e'.followedBy links)) with
    | error fault => exact ⟨report source fault, rfl⟩
    | ok w =>
      rw [hend] at hfails
      exact hfails.elim

theorem parse_a : parse "a" = .ok (.name "a") := whole_eq_ok (by cbv) rfl

/-- A chain behind null with a call and a key that have no value themselves. -/
theorem evaluate_followedBy_unknown :
    let names : Bindings := [("a", .null)]
    let links : List Link := [.member (.literal (.string "b")) true,
      .call [.single (.name "x")] false, .member (.name "y") true]
    evaluate names [0, 0, 0, 7] "a" = .ok .null ∧
      parse "a?.b(x)?.[y]" = .ok (followedBy (.name "a") links) ∧ isGuarded links = true ∧
      evaluate names [7] "a?.b(x)?.[y]" = .ok .undefined := by
  intro names links
  have hvalue (label : Label) : evaluate names label "a" = .ok .null := by
    rw [evaluate_eq_evaluateWithin, evaluateWithin_of_whole parse_a]
    rfl
  have hsource : parse "a?.b(x)?.[y]" = .ok (followedBy (.name "a") links) :=
    whole_eq_ok (by cbv) rfl
  have hchain := (evaluate_followedBy names [7] (.name "a") links).2 "a" "a?.b(x)?.[y]" .null
    parse_a (hvalue _) rfl (List.cons_ne_nil _ _) hsource
  exact ⟨hvalue _, hsource, rfl, hchain.2.1 rfl rfl⟩

/-- An access behind an optional one meets undefined, and an optional call is a call. -/
theorem evaluate_followedBy_unguarded :
    let names : Bindings := [("a", .null)]
    evaluate names [0, 0, 7] "a" = .ok .null ∧
      evaluate names [7] "a?.b.c" =
        .error (.about "a?.b.c" (.noProperty "c" "undefined")) ∧
      evaluate names [7] "a?.()" = .error (.about "a?.()" (.notAFunction "object")) := by
  intro names
  have hmember : parse "a?.b.c" = .ok (.member (.member (.name "a") (.literal (.string "b")) true)
      (.literal (.string "c")) false) := whole_eq_ok (by cbv) rfl
  have hcall : parse "a?.()" = .ok (.call (.name "a") []) := whole_eq_ok (by cbv) rfl
  refine ⟨?_, ?_, ?_⟩
  · rw [evaluate_eq_evaluateWithin, evaluateWithin_of_whole parse_a]
    rfl
  · rw [evaluate_eq_evaluateWithin, evaluateWithin_of_whole hmember]
    rfl
  · rw [evaluate_eq_evaluateWithin, evaluateWithin_of_whole hcall]
    rfl

end Expr
end Atoll
