import Atoll.Value.Member
import Atoll.Value.Method

/-!
# What operators and functions end with

A computation on values has a result or ends with a fault.  Trouble with numbers and texts may come
from any of them; only functions are misused.

* `Ends Q R x` — the computation `x` gives a result with `R` or fails with `Q`; the lemmas beside it
  follow the steps of a computation.
* `Fault.Reportable` — the faults that are turned into a reported failure, in a call and outside.
* `Value.binary_fails`, `Value.member_fails` — operators and members end with such faults only.
* `Value.callMethod_fails`, `Value.callBuiltin_fails` — so do methods and functions.
-/

set_option autoImplicit false

namespace Atoll

/-! ## Results and faults -/

section

variable {ε α β : Type} {Q : ε → Prop} {R : α → Prop} {R' : β → Prop}

/-- The computation gives a result with `R` or fails with `Q`. -/
def Ends (Q : ε → Prop) (R : α → Prop) : Except ε α → Prop
  | .ok a => R a
  | .error e => Q e

/-- One step after another. -/
theorem Ends.bind {x : Except ε α} {f : α → Except ε β} (hx : Ends Q R x)
    (hf : ∀ a, R a → Ends Q R' (f a)) : Ends Q R' (x >>= f) := by
  cases x with
  | ok a => exact hf a hx
  | error e => exact hx

theorem Ends.map {x : Except ε α} {f : α → β} (hx : Ends Q R x) (hf : ∀ a, R a → R' (f a)) :
    Ends Q R' (x.map f) := by
  cases x with
  | ok a => exact hf a hx
  | error e => exact hx

/-- A result of one step after another is a result of both. -/
theorem exists_of_bind {x : Except ε α} {f : α → Except ε β} {b : β} (h : x >>= f = .ok b) :
    ∃ a, x = .ok a ∧ f a = .ok b := by
  cases x with
  | ok a => exact ⟨a, rfl, h⟩
  | error e => cases h

theorem exists_of_map {x : Except ε α} {f : α → β} {b : β} (h : x.map f = .ok b) :
    ∃ a, x = .ok a ∧ f a = b := by
  cases x with
  | ok a => exact ⟨a, rfl, Except.ok.inj h⟩
  | error e => cases h

/-- The computation fails with `Q` if it fails. -/
abbrev FailsWith (Q : ε → Prop) (x : Except ε α) : Prop :=
  Ends Q (fun _ => True) x

theorem FailsWith.ok (a : α) : FailsWith Q (.ok a : Except ε α) :=
  trivial

theorem FailsWith.error {e : ε} (h : Q e) : FailsWith Q (.error e : Except ε α) :=
  h

theorem FailsWith.bind {x : Except ε α} {f : α → Except ε β} (hx : FailsWith Q x)
    (hf : ∀ a, FailsWith Q (f a)) : FailsWith Q (x >>= f) :=
  Ends.bind hx fun a _ => hf a

theorem FailsWith.map {x : Except ε α} (hx : FailsWith Q x) (f : α → β) : FailsWith Q (x.map f) :=
  Ends.map hx fun _ _ => trivial

theorem FailsWith.mono {Q' : ε → Prop} {x : Except ε α} (hx : FailsWith Q x)
    (h : ∀ e, Q e → Q' e) : FailsWith Q' x := by
  cases x with
  | ok a => trivial
  | error e => exact h e hx

theorem FailsWith.mapM {f : α → Except ε β} (hf : ∀ a, FailsWith Q (f a)) (items : List α) :
    FailsWith Q (items.mapM f) := by
  induction items with
  | nil => exact .ok _
  | cons a items ih =>
    rw [List.mapM_cons]
    exact (hf a).bind fun b => ih.bind fun bs => .ok _

theorem FailsWith.anyM {f : α → Except ε Bool} (hf : ∀ a, FailsWith Q (f a)) (items : List α) :
    FailsWith Q (items.anyM f) := by
  induction items with
  | nil => exact .ok _
  | cons a items ih =>
    rw [List.anyM]
    refine (hf a).bind fun found => ?_
    cases found with
    | true => exact .ok _
    | false => exact ih

end

/-! ## Numbers -/

/-- Trouble with numbers and texts. -/
abbrev Trouble.IsPlain (t : Trouble) : Prop :=
  t.kind = .overflow ∨ t.kind = .invalid

namespace Number

variable (n a b : Number)

theorem toFloat_fails : FailsWith Trouble.IsPlain n.toFloat := by
  cases n with
  | float x => exact .ok x
  | int n =>
    rw [toFloat]
    split
    · exact .error (by decide)
    · exact .ok _

theorem isNaN_fails : FailsWith Trouble.IsPlain n.isNaN :=
  n.toFloat_fails.map _

theorem isInfinite_fails : FailsWith Trouble.IsPlain n.isInfinite :=
  n.toFloat_fails.map _

theorem combine_fails (onInts : Int → Int → Int) (onFloats : Float → Float → Float)
    (a b : Number) : FailsWith Trouble.IsPlain (combine onInts onFloats a b) := by
  unfold combine
  split
  · exact .ok _
  · exact a.toFloat_fails.bind fun x => b.toFloat_fails.bind fun y => .ok _

theorem div_fails : FailsWith Trouble.IsPlain (div a b) := by
  unfold div
  split
  · split
    · exact .ok _
    · refine a.isNaN_fails.bind fun nan => ?_
      split
      · exact .ok _
      · exact a.toFloat_fails.bind fun x => b.toFloat_fails.bind fun y => .ok _
  · split
    · dsimp only
      split
      · exact .error (by decide)
      · exact .ok _
    · exact a.toFloat_fails.bind fun x => b.toFloat_fails.bind fun y => .ok _

theorem rem_fails : FailsWith Trouble.IsPlain (rem a b) := by
  unfold rem
  split
  · exact .ok _
  refine a.isInfinite_fails.bind fun infinite => ?_
  split
  · exact .ok _
  refine a.isNaN_fails.bind fun nan => ?_
  split
  · exact .ok _
  refine b.isNaN_fails.bind fun nan => ?_
  split
  · exact .ok _
  refine b.isInfinite_fails.bind fun infinite => ?_
  split
  · exact .ok _
  · exact a.toFloat_fails.bind fun x => b.toFloat_fails.bind fun y => .ok _

/-- Only a finite number has an integer part. -/
theorem integerPart_fails (part : Option Int) (x : Float) : FailsWith Trouble.IsPlain
    (match part with
      | some n => .ok n
      | none => .error (if Double.isNaN x then .notANumber else .infinite)) := by
  cases part with
  | some n => exact .ok n
  | none =>
    dsimp only
    split
    · exact .error (by decide)
    · exact .error (by decide)

theorem truncate_fails : FailsWith Trouble.IsPlain n.truncate := by
  cases n with
  | int n => exact .ok n
  | float x => exact integerPart_fails _ x

theorem floor_fails : FailsWith Trouble.IsPlain n.floor := by
  cases n with
  | int n => exact .ok n
  | float x => exact integerPart_fails _ x

theorem ceil_fails : FailsWith Trouble.IsPlain n.ceil := by
  cases n with
  | int n => exact .ok n
  | float x => exact integerPart_fails _ x

theorem round_fails : FailsWith Trouble.IsPlain n.round := by
  refine n.toFloat_fails.bind fun x => ?_
  split
  · exact .ok _
  · exact (floor_fails _).map _

theorem sqrt_fails : FailsWith Trouble.IsPlain n.sqrt := by
  unfold sqrt
  split
  · exact .ok _
  · refine n.isNaN_fails.bind fun nan => ?_
    split
    · exact .ok _
    · exact n.toFloat_fails.bind fun x => .ok _

theorem pow_fails : FailsWith Trouble.IsPlain (pow a b) := by
  refine a.toFloat_fails.bind fun x => b.toFloat_fails.bind fun y => ?_
  dsimp only
  split
  · exact .error (by decide)
  · split
    · split
      · exact .error (by decide)
      · exact .error (by decide)
    · exact .ok _

theorem fixed_fails (places : Int) : FailsWith Trouble.IsPlain (n.fixed places) := by
  unfold fixed
  split
  · exact .error (by decide)
  · split
    · exact .error (by decide)
    · refine n.toFloat_fails.bind fun x => ?_
      split
      · exact .error (by decide)
      · exact .ok _

end Number

namespace Expr

/-- Whether the cause that a reason names is one that could be met there: plain trouble behind
arithmetic, and behind a call also arguments that a function does not take. -/
def Reason.IsFounded : Reason → Prop
  | .callFailed (some cause) => cause.IsPlain ∨ cause.kind = .misuse
  | .arithmeticFailed cause => cause.IsPlain
  | _ => True

/-- Whether a fault is turned into a reported failure.  Arguments that a function does not take are
reported by the call. -/
def Fault.Reportable (inCall : Bool) : Fault → Prop
  | .failed failure => failure.reason.IsFounded
  | .trouble cause => cause.IsPlain ∨ inCall = true ∧ cause.kind = .misuse
  | .tooDeep => True

theorem Fault.Reportable.inCall {fault : Fault} (h : fault.Reportable false) :
    fault.Reportable true := by
  cases fault with
  | trouble cause => exact h.imp_right fun hmisuse => ⟨rfl, hmisuse.2⟩
  | _ => exact h

/-- A fault that says why a value has no text. -/
inductive Fault.LacksText : Fault → Prop where
  | number : LacksText (.because .numberTooLarge)
  | kind (kind : String) : LacksText (.because (.noText kind))

theorem Fault.LacksText.reportable {inCall : Bool} {fault : Fault} (h : fault.LacksText) :
    fault.Reportable inCall := by
  cases h <;> trivial

end Expr

/-! ## Operations on values -/

namespace Value

open Atoll.Expr

variable {inCall : Bool}

theorem liftNumber_fails {α : Type} {r : Except Trouble α} (h : FailsWith Trouble.IsPlain r) :
    FailsWith (Fault.Reportable inCall) (liftNumber r) := by
  cases r with
  | ok a => exact .ok a
  | error t => exact .error (.inl h)

theorem truthy_fails (v : Value) : FailsWith (Fault.Reportable inCall) v.truthy := by
  cases v with
  | number n =>
    rw [truthy]
    split
    · exact .ok _
    · exact (liftNumber_fails n.isNaN_fails).map _
  | _ => exact .ok _

theorem numberText_lacksText (n : Number) : FailsWith Fault.LacksText (numberText n) := by
  rw [numberText]
  split
  · exact .ok _
  · exact .error .number

mutual

theorem toText_lacksText : (v : Value) → FailsWith Fault.LacksText v.toText
  | .undefined => .ok _
  | .null => .ok _
  | .bool _ => .ok _
  | .number n => numberText_lacksText n
  | .string s => .ok s
  | .array _ items => (itemTexts_lacksText items).map _
  | .object _ _ => .ok _
  | .builtin _ => .ok _
  | .method _ _ _ => .ok _
  | .closure _ _ _ _ _ => .ok _
  | .library _ => .error (.kind _)
  | .foreign _ kind => .error (.kind kind)

theorem itemTexts_lacksText : (vs : List Value) → FailsWith Fault.LacksText (itemTexts vs)
  | [] => .ok []
  | v :: vs => by
    rw [itemTexts]
    split
    · exact FailsWith.bind (.ok _) fun s => (itemTexts_lacksText vs).bind fun ss => .ok _
    · exact (toText_lacksText v).bind fun s => (itemTexts_lacksText vs).bind fun ss => .ok _

end

theorem toText_fails (v : Value) : FailsWith (Fault.Reportable inCall) v.toText :=
  v.toText_lacksText.mono fun _ => Fault.LacksText.reportable

theorem itemTexts_fails (vs : List Value) :
    FailsWith (Fault.Reportable inCall) (itemTexts vs) :=
  (itemTexts_lacksText vs).mono fun _ => Fault.LacksText.reportable

theorem toNumber_fails (v : Value) : FailsWith (Fault.Reportable inCall) v.toNumber := by
  cases v with
  | array label items => exact (toText_fails _).map _
  | _ => exact .ok _

theorem looseEqPlain_fails (a b : Value) :
    FailsWith (Fault.Reportable inCall) (looseEqPlain a b) := by
  unfold looseEqPlain
  split
  · exact .ok _
  · split
    · exact .ok _
    · split
      · exact a.toNumber_fails.bind fun x => b.toNumber_fails.bind fun y => .ok _
      · exact .ok _

theorem looseEq_fails (a b : Value) : FailsWith (Fault.Reportable inCall) (looseEq a b) := by
  unfold looseEq
  split
  · exact looseEqPlain_fails a b
  · split
    · exact a.toText_fails.bind fun s => looseEqPlain_fails (.string s) b
    · split
      · exact b.toText_fails.bind fun s => looseEqPlain_fails a (.string s)
      · exact looseEqPlain_fails a b

theorem compareWith_fails (onText : String → String → Bool) (onNumber : Number → Number → Bool)
    (a b : Value) :
    FailsWith (Fault.Reportable inCall) (compareWith onText onNumber a b) := by
  unfold compareWith
  split
  · exact .ok _
  · refine a.toNumber_fails.bind fun x => b.toNumber_fails.bind fun y => ?_
    refine (liftNumber_fails x.isNaN_fails).bind fun nan => ?_
    split
    · exact .ok _
    · refine (liftNumber_fails y.isNaN_fails).bind fun nan => ?_
      split
      · exact .ok _
      · exact .ok _

theorem toPrimitive_fails (v : Value) :
    FailsWith (Fault.Reportable inCall) v.toPrimitive := by
  cases v with
  | array label items => exact (toText_fails _).map _
  | object label entries => exact (toText_fails (.object label entries)).map _
  | _ => exact .ok _

theorem add_fails (a b : Value) : FailsWith (Fault.Reportable inCall) (add a b) := by
  refine a.toPrimitive_fails.bind fun a => b.toPrimitive_fails.bind fun b => ?_
  split
  · exact a.toText_fails.bind fun s => b.toText_fails.bind fun t => .ok _
  · exact a.toNumber_fails.bind fun x => b.toNumber_fails.bind fun y =>
      (liftNumber_fails (Number.combine_fails _ _ x y)).bind fun n => .ok _

theorem arithmetic_fails {op : Number → Number → Except Trouble Number}
    (hop : ∀ x y, FailsWith Trouble.IsPlain (op x y)) (a b : Value) :
    FailsWith (Fault.Reportable inCall) (arithmetic op a b) :=
  a.toNumber_fails.bind fun x => b.toNumber_fails.bind fun y =>
    (liftNumber_fails (hop x y)).bind fun _ => .ok _

theorem binary_fails (op : BinaryOp) (a b : Value) :
    FailsWith (Fault.Reportable inCall) (binary op a b) := by
  cases op with
  | strictEq => exact .ok _
  | strictNe => exact .ok _
  | looseEq => exact (looseEq_fails a b).map _
  | looseNe => exact (looseEq_fails a b).map _
  | lt => exact (compareWith_fails _ _ a b).map _
  | le => exact (compareWith_fails _ _ a b).map _
  | gt => exact (compareWith_fails _ _ a b).map _
  | ge => exact (compareWith_fails _ _ a b).map _
  | add => exact add_fails a b
  | sub => exact arithmetic_fails (Number.combine_fails _ _) a b
  | mul => exact arithmetic_fails (Number.combine_fails _ _) a b
  | div => exact arithmetic_fails Number.div_fails a b
  | rem => exact arithmetic_fails Number.rem_fails a b

theorem unary_fails (op : UnaryOp) (v : Value) :
    FailsWith (Fault.Reportable inCall) (v.unary op) := by
  cases op with
  | not => exact v.truthy_fails.map _
  | neg => exact v.toNumber_fails.map _
  | pos => exact v.toNumber_fails.map _
  | typeof => exact .ok _

theorem unreadDigits_isPlain (s : String) : (unreadDigits s).IsPlain := by
  unfold unreadDigits
  dsimp only
  split
  · exact .inr rfl
  · exact .inr rfl

theorem index?_fails (key : Value) : FailsWith (Fault.Reportable inCall) key.index? := by
  cases key with
  | number n =>
    refine (liftNumber_fails n.toFloat_fails).bind fun x => ?_
    split
    · exact (liftNumber_fails n.truncate_fails).bind fun i => .ok _
    · exact .ok _
  | string s =>
    rw [index?]
    split
    · split
      · exact .ok _
      · exact .error (.inl (unreadDigits_isPlain s))
    · exact .ok _
  | _ => exact .ok _

theorem member_fails (label : Label) (v key : Value) :
    FailsWith (Fault.Reportable inCall) (v.member label key) := by
  cases v with
  | undefined => exact key.toText_fails.bind fun s => .error trivial
  | null => exact key.toText_fails.bind fun s => .error trivial
  | library l => exact key.toText_fails.bind fun s => .ok _
  | object label entries => exact key.toText_fails.bind fun s => .ok _
  | string s =>
    refine key.index?_fails.bind fun i => ?_
    split
    · exact .ok _
    · exact key.toText_fails.bind fun s => .ok _
  | array label items =>
    refine key.index?_fails.bind fun i => ?_
    split
    · exact .ok _
    · exact key.toText_fails.bind fun s => .ok _
  | number n => exact key.toText_fails.bind fun s => .ok _
  | bool b => exact key.toText_fails.bind fun s => .ok _
  | _ => exact .ok _

/-! ## Methods and functions -/

theorem toInt_fails (v : Value) : FailsWith (Fault.Reportable inCall) v.toInt :=
  v.toNumber_fails.bind fun n => liftNumber_fails n.truncate_fails

theorem clamp_fails (length default : Nat) (v : Value) :
    FailsWith (Fault.Reportable inCall) (clamp length default v) := by
  unfold clamp
  split
  · exact .ok _
  · refine v.toNumber_fails.bind fun n => (liftNumber_fails n.isNaN_fails).bind fun nan => ?_
    cases nan with
    | true => exact .ok _
    | false => exact (liftNumber_fails n.truncate_fails).bind fun i => .ok _

theorem sliceBounds_fails (length : Nat) (start stop : Value) :
    FailsWith (Fault.Reportable inCall) (sliceBounds length start stop) :=
  (clamp_fails length 0 start).bind fun _ => (clamp_fails length length stop).bind fun _ => .ok _

theorem substringEnd_fails (v : Value) :
    FailsWith (Fault.Reportable inCall) (substringEnd v) := by
  unfold substringEnd
  split
  · exact .ok _
  · exact v.toNumber_fails.bind fun n => .ok _

theorem substring_fails (s : List Char) (start stop : Value) :
    FailsWith (Fault.Reportable inCall) (substring s start stop) :=
  (substringEnd_fails start).bind fun _ => (substringEnd_fails stop).bind fun _ =>
    (sliceBounds_fails _ _ _).bind fun _ => .ok _

theorem pieces_fails (s : List Char) (separator : Value) :
    FailsWith (Fault.Reportable inCall) (pieces s separator) := by
  unfold pieces
  split
  · exact .ok _
  · exact .ok _
  · refine separator.toText_fails.bind fun mark => ?_
    split
    · exact .error (.inl (by decide))
    · exact .ok _

theorem limited_fails {α : Type} (items : List α) (limit : Value) :
    FailsWith (Fault.Reportable inCall) (limited items limit) := by
  unfold limited
  split
  · exact .ok _
  · exact limit.toInt_fails.bind fun n => .ok _

theorem repeated_fails (s : String) (n : Int) :
    FailsWith (Fault.Reportable inCall) (liftNumber (Text.repeated s n)) := by
  refine liftNumber_fails ?_
  unfold Text.repeated
  split
  · exact .error (by decide)
  · split
    · exact .ok _
    · split
      · exact .error (by decide)
      · exact .ok _

theorem padding_fails (s : List Char) (width fill : Value) :
    FailsWith (Fault.Reportable inCall) (padding s width fill) := by
  have hfill : ∀ (width : Int) (fill : String), FailsWith (Fault.Reportable inCall)
      (if (decide (width - s.length ≤ 0) || fill.isEmpty) = true then .ok []
      else do
        let filler ← liftNumber (Text.repeated fill ((width - s.length) / fill.length + 1))
        .ok (filler.toList.take (width - s.length).toNat)) := by
    intro width fill
    split
    · exact .ok _
    · exact (repeated_fails _ _).bind fun filler => .ok _
  refine width.toInt_fails.bind fun width => ?_
  split
  · exact hfill width " "
  · exact fill.toText_fails.bind fun fill => hfill width fill

theorem callString_fails (label : Label) (m : StringMethod) (text : String) (args : List Value) :
    FailsWith (Fault.Reportable true) (callString label m text args) := by
  unfold callString
  dsimp only
  split
  -- nothing to convert
  case h_1 | h_2 | h_3 | h_4 | h_5 | h_11 | h_14 | h_17 | h_27 | h_31 => exact .ok _
  -- an argument as text
  case h_6 | h_7 | h_8 | h_9 | h_10 => exact (toText_fails _).bind fun _ => .ok _
  case h_20 | h_21 =>
    exact (toText_fails _).bind fun _ => (toText_fails _).bind fun _ => .ok _
  case h_30 => exact (FailsWith.mapM toText_fails _).bind fun _ => .ok _
  -- places in the text
  case h_12 | h_13 => exact (sliceBounds_fails _ _ _).bind fun _ => .ok _
  case h_15 | h_16 => exact (substring_fails _ _ _).map _
  case h_28 | h_29 => exact (toInt_fails _).bind fun _ => .ok _
  -- separators
  case h_18 => exact (pieces_fails _ _).map _
  case h_19 => exact (pieces_fails _ _).bind fun _ => (limited_fails _ _).bind fun _ => .ok _
  -- repeated texts
  case h_22 => exact (toInt_fails _).bind fun _ => (repeated_fails _ _).bind fun _ => .ok _
  case h_23 | h_24 | h_25 | h_26 => exact (padding_fails _ _ _).bind fun _ => .ok _
  -- another number of arguments
  case h_32 => exact .error (.inr ⟨rfl, rfl⟩)

section

variable {call : Caller}
  (hcall : ∀ i f args, FailsWith (Fault.Reportable true) (call i f args)) (f : Value)
include hcall

theorem mapItems_fails (i : Nat) (items : List Value) :
    FailsWith (Fault.Reportable true) (mapItems call f i items) := by
  induction items generalizing i with
  | nil => exact .ok _
  | cons v vs ih => exact (hcall i f _).bind fun r => (ih (i + 1)).bind fun rs => .ok _

theorem filterItems_fails (i : Nat) (items : List Value) :
    FailsWith (Fault.Reportable true) (filterItems call f i items) := by
  induction items generalizing i with
  | nil => exact .ok _
  | cons v vs ih =>
    exact (hcall i f _).bind fun r => r.truthy_fails.bind fun keep =>
      (ih (i + 1)).bind fun rs => .ok _

theorem findItem_fails (wanted : Bool) (i : Nat) (items : List Value) :
    FailsWith (Fault.Reportable true) (findItem call f wanted i items) := by
  induction items generalizing i with
  | nil => exact .ok _
  | cons v vs ih =>
    refine (hcall i f _).bind fun r => r.truthy_fails.bind fun t => ?_
    split
    · exact .ok _
    · exact ih (i + 1)

theorem reduceItems_fails (i : Nat) (acc : Value) (items : List Value) :
    FailsWith (Fault.Reportable true) (reduceItems call f i acc items) := by
  induction items generalizing i acc with
  | nil => exact .ok _
  | cons v vs ih => exact (hcall i f _).bind fun acc => ih (i + 1) acc

end

theorem join_fails (separator : Value) (items : List Value) :
    FailsWith (Fault.Reportable inCall) (join separator items) := by
  unfold join
  split
  · exact (itemTexts_fails items).bind fun _ => .ok _
  · exact separator.toText_fails.bind fun _ => (itemTexts_fails items).bind fun _ => .ok _

theorem indexOf_fails (items : List Value) (target start : Value) :
    FailsWith (Fault.Reportable inCall) (indexOf items target start) :=
  (clamp_fails _ _ start).bind fun _ => .ok _

theorem callArray_fails {call : Caller}
    (hcall : ∀ i f args, FailsWith (Fault.Reportable true) (call i f args)) (label : Label)
    (m : ArrayMethod) (items args : List Value) :
    FailsWith (Fault.Reportable true) (callArray call label m items args) := by
  unfold callArray
  split
  case h_1 | h_2 => exact join_fails _ _
  case h_3 | h_6 | h_9 | h_11 | h_20 => exact .ok _
  case h_4 | h_5 => exact indexOf_fails _ _ _
  case h_7 | h_8 => exact (sliceBounds_fails _ _ _).bind fun _ => .ok _
  case h_10 => exact (toInt_fails _).bind fun _ => .ok _
  -- methods that call back
  case h_12 => exact (mapItems_fails hcall _ 0 items).map _
  case h_13 => exact (filterItems_fails hcall _ 0 items).map _
  case h_14 | h_15 | h_16 | h_17 => exact (findItem_fails hcall _ _ 0 items).map _
  case h_18 => exact reduceItems_fails hcall _ 0 _ items
  case h_19 =>
    split
    · exact reduceItems_fails hcall _ 1 _ _
    · exact .error trivial
  case h_21 => exact (toText_fails _).map _
  case h_22 => exact .error (.inr ⟨rfl, rfl⟩)

theorem toFixed_fails (v places : Value) :
    FailsWith (Fault.Reportable inCall) (toFixed v places) :=
  v.toNumber_fails.bind fun n => places.toInt_fails.bind fun k =>
    (liftNumber_fails (n.fixed_fails k)).bind fun _ => .ok _

theorem callNumber_fails (m : NumberMethod) (v : Value) (args : List Value) :
    FailsWith (Fault.Reportable true) (callNumber m v args) := by
  unfold callNumber
  split
  · exact toFixed_fails v _
  · exact toFixed_fails v _
  · exact v.toText_fails.map _
  · exact .error (.inr ⟨rfl, rfl⟩)

/-- **A method ends with a fault that the call reports**, if the functions it calls back do. -/
theorem callMethod_fails {call : Caller}
    (hcall : ∀ i f args, FailsWith (Fault.Reportable true) (call i f args)) (label : Label)
    (m : Method) (receiver : Value) (args : List Value) :
    FailsWith (Fault.Reportable true) (callMethod call label m receiver args) := by
  unfold callMethod
  split
  · exact callString_fails label _ _ args
  · exact callArray_fails hcall label _ _ args
  · exact callNumber_fails _ _ args
  · exact .error trivial

theorem exported_fails (v : Value) : FailsWith (Fault.Reportable inCall) v.exported := by
  unfold exported
  split
  · exact .error (.inl (by decide))
  · exact .ok _

theorem stringify_fails (v indent : Value) :
    FailsWith (Fault.Reportable inCall) (stringify v indent) := by
  unfold stringify
  split
  · exact .ok _
  · refine v.exported_fails.bind fun data => ?_
    split
    · exact .ok _
    · refine indent.toInt_fails.bind fun width => ?_
      split
      · exact .ok _
      · exact (repeated_fails _ _).bind fun _ => .ok _

theorem parseJson_fails (label : Label) (v : Value) :
    FailsWith (Fault.Reportable inCall) (parseJson label v) := by
  refine v.toText_fails.bind fun text => ?_
  split
  · exact .ok _
  · exact .error trivial
  · exact .error (.inl (.inr rfl))
  · exact .error trivial

theorem onNumber_fails {f : Number → Except Trouble Int}
    (hf : ∀ n, FailsWith Trouble.IsPlain (f n)) (v : Value) :
    FailsWith (Fault.Reportable inCall) (onNumber f v) :=
  v.toNumber_fails.bind fun n => (liftNumber_fails (hf n)).bind fun _ => .ok _

theorem extreme_fails (before : Number → Number → Bool) (ifNone : Float) (args : List Value) :
    FailsWith (Fault.Reportable inCall) (extreme before ifNone args) := by
  refine (FailsWith.mapM toNumber_fails args).bind fun numbers => ?_
  split
  · exact .ok _
  · refine (FailsWith.anyM (fun n => liftNumber_fails n.isNaN_fails) _).bind fun nan => ?_
    split
    · exact .ok _
    · exact .ok _

/-- **So does a function that every expression can name.** -/
theorem callBuiltin_fails (label : Label) (f : Builtin) (args : List Value) :
    FailsWith (Fault.Reportable true) (callBuiltin label f args) := by
  unfold callBuiltin
  split
  -- numbers
  case h_1 => exact onNumber_fails Number.floor_fails _
  case h_2 => exact onNumber_fails Number.ceil_fails _
  case h_3 => exact onNumber_fails Number.truncate_fails _
  case h_4 =>
    exact (toNumber_fails _).bind fun n => (liftNumber_fails n.round_fails).bind fun _ => .ok _
  case h_5 | h_6 => exact (toNumber_fails _).bind fun _ => .ok _
  case h_7 =>
    exact (toNumber_fails _).bind fun n => (liftNumber_fails n.sqrt_fails).bind fun _ => .ok _
  case h_8 => exact arithmetic_fails Number.pow_fails _ _
  case h_9 | h_10 => exact extreme_fails _ _ _
  -- written values
  case h_11 | h_12 | h_13 => exact stringify_fails _ _
  case h_14 => exact parseJson_fails label _
  -- conversions
  case h_16 => exact (toText_fails _).map _
  case h_18 => exact (toNumber_fails _).map _
  case h_20 => exact (truthy_fails _).map _
  case h_15 | h_17 | h_19 | h_21 | h_22 | h_23 | h_24 | h_25 => exact .ok _
  -- another number of arguments
  case h_26 => exact .error (.inr ⟨rfl, rfl⟩)

end Value

end Atoll
