import Atoll.Proofs.Outcome

/-!
# Other labels for the same values

A label is only ever compared with another one.  So when all labels in some values are exchanged for
others, different ones for different ones, whatever reads the values reads the same: their texts,
their numbers and the data in them, whether they are equal, and what operators and methods make of
them.

* `Value.relabel σ v` — the value with the label `σ l` wherever `v` has `l`.
* `Value.toText_relabel`, `Value.render_relabel`, `Value.toNumber_relabel`, `Value.exported_relabel`
  — the conversions do not see labels.
* `Value.strictEq_relabel` — **equality sees only which labels are the same.**
* `Value.binary_relabel`, `Value.unary_relabel` — so operators give the same results.
* `Value.callString_relabel`, `Value.callNumber_relabel`, `Value.stringify_relabel` — and so does
  what makes texts and numbers of its arguments.
-/

set_option autoImplicit false

namespace Atoll

theorem bind_map {ε α β γ : Type} (x : Except ε α) (f : α → β) (g : β → Except ε γ) :
    x.map f >>= g = x >>= fun a => g (f a) := by
  cases x with
  | ok a => rfl
  | error e => rfl

namespace Value

open Atoll.Expr (Fault)

/-! ## Exchanging labels -/

mutual

/-- The value with other labels. -/
def relabel (σ : Label → Label) : Value → Value
  | .undefined => .undefined
  | .null => .null
  | .bool b => .bool b
  | .number n => .number n
  | .string s => .string s
  | .array label items => .array (σ label) (relabelAll σ items)
  | .object label entries => .object (σ label) (relabelEntries σ entries)
  | .builtin f => .builtin f
  | .library l => .library l
  | .method label m receiver => .method (σ label) m (relabel σ receiver)
  | .closure label params body locals home =>
    .closure (σ label) params body (relabelNames σ locals) home
  | .foreign label kind => .foreign (σ label) kind

/-- `relabel` on lists. -/
def relabelAll (σ : Label → Label) : List Value → List Value
  | [] => []
  | v :: vs => relabel σ v :: relabelAll σ vs

/-- `relabel` on entries. -/
def relabelEntries (σ : Label → Label) : List (Value × Value) → List (Value × Value)
  | [] => []
  | (k, v) :: rest => (relabel σ k, relabel σ v) :: relabelEntries σ rest

/-- `relabel` on names with their values. -/
def relabelNames (σ : Label → Label) : List (String × Value) → List (String × Value)
  | [] => []
  | (x, v) :: rest => (x, relabel σ v) :: relabelNames σ rest

end

variable (σ : Label → Label) (v a b : Value)

theorem relabelAll_eq_map (vs : List Value) : relabelAll σ vs = vs.map (relabel σ) := by
  induction vs with
  | nil => rfl
  | cons v vs ih => rw [relabelAll, ih, List.map_cons]

theorem relabelEntries_eq_map (entries : Entries) :
    relabelEntries σ entries = entries.map (Prod.map (relabel σ) (relabel σ)) := by
  induction entries with
  | nil => rfl
  | cons entry entries ih => rw [relabelEntries, ih, List.map_cons, Prod.map]

theorem relabelNames_eq_map (names : Bindings) :
    relabelNames σ names = names.map (Prod.map id (relabel σ)) := by
  induction names with
  | nil => rfl
  | cons name names ih => rw [relabelNames, ih, List.map_cons, Prod.map, id]

/-! ## Conversions -/

@[simp] theorem category_relabel : (v.relabel σ).category = v.category := by
  cases v <;> rfl

@[simp] theorem isNothing_relabel : (v.relabel σ).isNothing = v.isNothing := by
  cases v <;> rfl

@[simp] theorem isFunction_relabel : (v.relabel σ).isFunction = v.isFunction := by
  cases v <;> rfl

@[simp] theorem isString_relabel : (v.relabel σ).isString = v.isString := by
  cases v <;> rfl

@[simp] theorem isPrimitive_relabel : (v.relabel σ).isPrimitive = v.isPrimitive := by
  simp [isPrimitive]

@[simp] theorem typeName_relabel : (v.relabel σ).typeName = v.typeName := by
  simp [typeName]

@[simp] theorem truthy_relabel : (v.relabel σ).truthy = v.truthy := by
  cases v <;> rfl

mutual

@[simp] theorem toText_relabel : (v : Value) → (v.relabel σ).toText = v.toText
  | .array label items => by rw [relabel, toText, toText, itemTexts_relabel items]
  | .undefined | .null | .bool _ | .number _ | .string _ | .object _ _ | .builtin _ | .library _
  | .method _ _ _ | .closure _ _ _ _ _ | .foreign _ _ => rfl

@[simp] theorem itemTexts_relabel :
    (vs : List Value) → itemTexts (relabelAll σ vs) = itemTexts vs
  | [] => rfl
  | v :: vs => by
    rw [relabelAll, itemTexts, itemTexts, isNothing_relabel, toText_relabel v, itemTexts_relabel vs]

end

mutual

@[simp] theorem render_relabel : (v : Value) → (v.relabel σ).render = v.render
  | .array label items => by rw [relabel, render, render, renderAll_relabel items]
  | .undefined | .null | .bool _ | .number _ | .string _ | .object _ _ | .builtin _ | .library _
  | .method _ _ _ | .closure _ _ _ _ _ | .foreign _ _ => rfl

theorem renderAll_relabel : (vs : List Value) → renderAll (relabelAll σ vs) = renderAll vs
  | [] => rfl
  | v :: vs => by rw [relabelAll, renderAll, renderAll, render_relabel v, renderAll_relabel vs]

end

@[simp] theorem toNumber_relabel : (v.relabel σ).toNumber = v.toNumber := by
  cases v with
  | array label items =>
    exact congrArg (Except.map Number.ofText) (toText_relabel σ (.array label items))
  | _ => rfl

@[simp] theorem isExported_relabel : (v.relabel σ).isExported = v.isExported := by
  simp [isExported]

@[simp] theorem keyText_relabel : (v.relabel σ).keyText = v.keyText := by
  cases v <;> rfl

mutual

theorem toDatum_relabel : (v : Value) → (v.relabel σ).toDatum = v.toDatum
  | .array label items => by rw [relabel, toDatum, toDatum, toData_relabel items]
  | .object label entries => by rw [relabel, toDatum, toDatum, toDataEntries_relabel entries]
  | .undefined | .null | .bool _ | .number _ | .string _ | .builtin _ | .library _
  | .method _ _ _ | .closure _ _ _ _ _ | .foreign _ _ => rfl

theorem toData_relabel : (vs : List Value) → toData (relabelAll σ vs) = toData vs
  | [] => rfl
  | v :: vs => by rw [relabelAll, toData, toData, toDatum_relabel v, toData_relabel vs]

theorem toDataEntries_relabel :
    (entries : Entries) → toDataEntries (relabelEntries σ entries) = toDataEntries entries
  | [] => rfl
  | (k, v) :: rest => by
    rw [relabelEntries, toDataEntries, toDataEntries, isExported_relabel, keyText_relabel,
      toDatum_relabel v, toDataEntries_relabel rest]

end

theorem isLongKey_relabel : (v.relabel σ).isLongKey = v.isLongKey := by
  cases v <;> rfl

mutual

theorem hasLongKey_relabel : (v : Value) → (v.relabel σ).hasLongKey = v.hasLongKey
  | .array label items => by rw [relabel, hasLongKey, hasLongKey, anyLongKey_relabel items]
  | .object label entries => by
    rw [relabel, hasLongKey, hasLongKey, longKeyAmong_relabel entries]
  | .undefined | .null | .bool _ | .number _ | .string _ | .builtin _ | .library _
  | .method _ _ _ | .closure _ _ _ _ _ | .foreign _ _ => rfl

theorem anyLongKey_relabel : (vs : List Value) → anyLongKey (relabelAll σ vs) = anyLongKey vs
  | [] => rfl
  | v :: vs => by
    rw [relabelAll, anyLongKey, anyLongKey, hasLongKey_relabel v, anyLongKey_relabel vs]

theorem longKeyAmong_relabel :
    (entries : Entries) → longKeyAmong (relabelEntries σ entries) = longKeyAmong entries
  | [] => rfl
  | (k, v) :: rest => by
    rw [relabelEntries, longKeyAmong, longKeyAmong, isExported_relabel, isLongKey_relabel,
      hasLongKey_relabel v, longKeyAmong_relabel rest]

end

@[simp] theorem exported_relabel : (v.relabel σ).exported = v.exported := by
  rw [exported, exported, hasLongKey_relabel, toDatum_relabel]

@[simp] theorem index?_relabel : (v.relabel σ).index? = v.index? := by
  cases v <;> rfl

/-! ## Operators -/

section

variable {σ} (hσ : Function.Injective σ)
include hσ

theorem beq_label (l m : Label) : (σ l == σ m) = (l == m) := by
  rw [Bool.eq_iff_iff, beq_iff_eq, beq_iff_eq, hσ.eq_iff]

/-- Equality sees only which labels are the same. -/
theorem strictEq_relabel (a b : Value) :
    strictEq (a.relabel σ) (b.relabel σ) = strictEq a b := by
  cases a <;> cases b <;> simp [strictEq, same, relabel, beq_label hσ]

theorem looseEqPlain_relabel (a b : Value) :
    looseEqPlain (a.relabel σ) (b.relabel σ) = looseEqPlain a b := by
  simp [looseEqPlain, strictEq_relabel hσ]

theorem looseEq_relabel (a b : Value) : looseEq (a.relabel σ) (b.relabel σ) = looseEq a b := by
  have hleft : ∀ s, looseEqPlain (.string s) (b.relabel σ) = looseEqPlain (.string s) b :=
    fun s => looseEqPlain_relabel hσ (.string s) b
  have hright : ∀ s, looseEqPlain (a.relabel σ) (.string s) = looseEqPlain a (.string s) :=
    fun s => looseEqPlain_relabel hσ a (.string s)
  simp [looseEq, looseEqPlain_relabel hσ, hleft, hright]

end

theorem bothNaN_relabel : bothNaN (a.relabel σ) (b.relabel σ) = bothNaN a b := by
  cases a with
  | number n =>
    cases b with
    | number m => rfl
    | _ => cases n <;> rfl
  | _ => rfl

/-- All but two texts are compared as numbers. -/
theorem compareWith_of_isString {onText : String → String → Bool}
    {onNumber : Number → Number → Bool} {a b : Value} (h : (a.isString && b.isString) = false) :
    compareWith onText onNumber a b = (do
      let x ← a.toNumber
      let y ← b.toNumber
      if ← liftNumber x.isNaN then .ok false
      else if ← liftNumber y.isNaN then .ok false
      else .ok (onNumber x y)) := by
  cases a with
  | string s =>
    cases b with
    | string t => cases h
    | _ => rfl
  | _ => rfl

theorem compareWith_relabel (onText : String → String → Bool) (onNumber : Number → Number → Bool)
    (a b : Value) :
    compareWith onText onNumber (a.relabel σ) (b.relabel σ) = compareWith onText onNumber a b := by
  by_cases h : (a.isString && b.isString) = true
  · rw [Bool.and_eq_true] at h
    cases a <;> cases h.1
    cases b <;> cases h.2
    rfl
  · rw [Bool.not_eq_true] at h
    rw [compareWith_of_isString h, compareWith_of_isString (by simpa using h)]
    simp only [toNumber_relabel]

theorem toPrimitive_relabel :
    (v.relabel σ).toPrimitive = v.toPrimitive.map (relabel σ) := by
  cases v with
  | array label items =>
    have htext := toText_relabel σ (.array label items)
    rw [relabel] at htext ⊢
    rw [toPrimitive, toPrimitive, htext]
    cases toText (.array label items) <;> rfl
  | _ => rfl

theorem add_relabel : add (a.relabel σ) (b.relabel σ) = add a b := by
  simp only [add, toPrimitive_relabel, bind_map, isString_relabel, toText_relabel, toNumber_relabel]

theorem arithmetic_relabel (op : Number → Number → Except Trouble Number) (a b : Value) :
    arithmetic op (a.relabel σ) (b.relabel σ) = arithmetic op a b := by
  simp only [arithmetic, toNumber_relabel]

theorem binary_relabel {σ : Label → Label} (hσ : Function.Injective σ) (op : BinaryOp)
    (a b : Value) : binary op (a.relabel σ) (b.relabel σ) = binary op a b := by
  cases op <;> simp only [binary, strictEq_relabel hσ, looseEq_relabel hσ, lt, le, gt, ge,
    compareWith_relabel, add_relabel, arithmetic_relabel]

theorem unary_relabel (op : UnaryOp) (v : Value) : (v.relabel σ).unary op = v.unary op := by
  cases op <;> simp only [unary, truthy_relabel, toNumber_relabel, typeName_relabel]

/-! ## Methods and functions -/

@[simp] theorem toInt_relabel : (v.relabel σ).toInt = v.toInt := by
  simp only [toInt, toNumber_relabel]

@[simp] theorem clamp_relabel (length default : Nat) (v : Value) :
    clamp length default (v.relabel σ) = clamp length default v := by
  cases v with
  | array label items =>
    have hnumber := toNumber_relabel σ (.array label items)
    rw [relabel] at hnumber ⊢
    simp only [clamp, hnumber]
  | _ => rfl

@[simp] theorem sliceBounds_relabel (length : Nat) (start stop : Value) :
    sliceBounds length (start.relabel σ) (stop.relabel σ) = sliceBounds length start stop := by
  simp only [sliceBounds, clamp_relabel]

theorem substringEnd_relabel : substringEnd (v.relabel σ) = substringEnd v := by
  cases v with
  | array label items =>
    have hnumber := toNumber_relabel σ (.array label items)
    rw [relabel] at hnumber ⊢
    simp only [substringEnd, hnumber]
  | _ => rfl

theorem substring_relabel (s : List Char) (start stop : Value) :
    substring s (start.relabel σ) (stop.relabel σ) = substring s start stop := by
  simp only [substring, substringEnd_relabel, category_relabel]

theorem pieces_relabel (s : List Char) (separator : Value) :
    pieces s (separator.relabel σ) = pieces s separator := by
  cases separator with
  | array label items =>
    have htext := toText_relabel σ (.array label items)
    rw [relabel] at htext ⊢
    simp only [pieces, htext]
  | _ => rfl

theorem limited_relabel {α : Type} (items : List α) (limit : Value) :
    limited items (limit.relabel σ) = limited items limit := by
  cases limit with
  | array label items =>
    have hint := toInt_relabel σ (.array label items)
    rw [relabel] at hint ⊢
    simp only [limited, hint]
  | _ => rfl

theorem padding_relabel (s : List Char) (width fill : Value) :
    padding s (width.relabel σ) (fill.relabel σ) = padding s width fill := by
  simp only [padding, toInt_relabel, category_relabel, toText_relabel]

theorem toText_comp_relabel : toText ∘ relabel σ = toText :=
  funext (toText_relabel σ)

theorem toNumber_comp_relabel : toNumber ∘ relabel σ = toNumber :=
  funext (toNumber_relabel σ)

/-- A method of a text makes the same of its arguments. -/
theorem callString_relabel (label : Label) (m : StringMethod) (text : String) (args : List Value) :
    callString label m text (args.map (relabel σ)) = callString label m text args := by
  -- where an optional argument is missing, undefined stands in for it under any labels
  have hslice : ∀ n v, sliceBounds n (v.relabel σ) .undefined = sliceBounds n v .undefined :=
    fun n v => sliceBounds_relabel σ n v .undefined
  have hpart : ∀ s v, substring s (v.relabel σ) .undefined = substring s v .undefined :=
    fun s v => substring_relabel σ s v .undefined
  have hpad : ∀ s v, padding s (v.relabel σ) .undefined = padding s v .undefined :=
    fun s v => padding_relabel σ s v .undefined
  rcases args with _ | ⟨a, _ | ⟨b, _ | ⟨c, rest⟩⟩⟩ <;> cases m <;>
    simp [callString, hslice, hpart, hpad, substring_relabel, pieces_relabel, limited_relabel,
      padding_relabel, toText_comp_relabel]

theorem join_relabel (separator : Value) (items : List Value) :
    join (separator.relabel σ) (items.map (relabel σ)) = join separator items := by
  simp only [join, category_relabel, toText_relabel, ← relabelAll_eq_map, itemTexts_relabel]

theorem indexOf_relabel {σ : Label → Label} (hσ : Function.Injective σ) (items : List Value)
    (target start : Value) :
    indexOf (items.map (relabel σ)) (target.relabel σ) (start.relabel σ) =
      indexOf items target start := by
  have hfind : ∀ vs : List Value,
      (vs.map (relabel σ)).findIdx? (fun v => strictEq v (target.relabel σ)) =
        vs.findIdx? fun v => strictEq v target := by
    intro vs
    rw [List.findIdx?_map]
    exact congrArg (List.findIdx? · vs) (funext fun v => strictEq_relabel hσ v target)
  simp only [indexOf, List.length_map, clamp_relabel, ← List.map_drop, hfind]

theorem toFixed_relabel (v places : Value) :
    toFixed (v.relabel σ) (places.relabel σ) = toFixed v places := by
  simp only [toFixed, toNumber_relabel, toInt_relabel]

theorem callNumber_relabel (m : NumberMethod) (v : Value) (args : List Value) :
    callNumber m (v.relabel σ) (args.map (relabel σ)) = callNumber m v args := by
  have hwhole : toFixed (v.relabel σ) (.ofInt 0) = toFixed v (.ofInt 0) :=
    toFixed_relabel σ v (.ofInt 0)
  rcases args with _ | ⟨a, _ | ⟨b, rest⟩⟩ <;> cases m <;>
    simp [callNumber, hwhole, toFixed_relabel]

theorem stringify_relabel (v indent : Value) :
    stringify (v.relabel σ) (indent.relabel σ) = stringify v indent := by
  simp only [stringify, category_relabel, exported_relabel, isNothing_relabel, toInt_relabel,
    isString_relabel]

theorem parseJson_relabel (label : Label) (v : Value) :
    parseJson label (v.relabel σ) = parseJson label v := by
  simp only [parseJson, toText_relabel]

theorem onNumber_relabel (f : Number → Except Trouble Int) (v : Value) :
    onNumber f (v.relabel σ) = onNumber f v := by
  simp only [onNumber, toNumber_relabel]

theorem extreme_relabel (before : Number → Number → Bool) (ifNone : Float) (args : List Value) :
    extreme before ifNone (args.map (relabel σ)) = extreme before ifNone args := by
  simp only [extreme, List.mapM_map, toNumber_comp_relabel]

/-! ## Entries -/

theorem sameKey_relabel {σ : Label → Label} (hσ : Function.Injective σ) (a b : Value) :
    Entries.sameKey (a.relabel σ) (b.relabel σ) = Entries.sameKey a b := by
  have hkey : ∀ v : Value,
      Entries.comparedKey (v.relabel σ) = (Entries.comparedKey v).relabel σ := by
    intro v
    cases v <;> rfl
  rw [Entries.sameKey, hkey, hkey, strictEq_relabel hσ, Entries.sameKey]

theorem isText_relabel (text : String) (v : Value) :
    Entries.isText text (v.relabel σ) = Entries.isText text v := by
  cases v <;> rfl

end Value
end Atoll
