import Atoll.Expr.Evaluator
import Atoll.Proofs.Relabelling

/-!
# Values that stand for each other in two evaluations

Think of two evaluations of one expression, each with its own names around it.  A value of the one
stands for a value of the other if the two differ in their labels only, and if the functions in them
use no other names than those on which the names around the two evaluations agree.

* `Expr.free` — the names that an expression uses and no arrow function in it binds.
* `Value.Sealed names v` — the functions in `v` use, besides what they keep, only these names.
* `Both R x y` — the computations `x` and `y` fail alike or have results with `R`.
* `Value.Twin σ names v w` — `w` is `v` with other labels, and `v` is sealed.
* `Value.member_twin` — twins have twins as members.
* `Value.callMethod_twin`, `Value.callBuiltin_twin` — **methods and functions make twins of twins**,
  if what they call back does.
-/

set_option autoImplicit false

namespace Atoll

/-! ## Free names -/

namespace Expr

mutual

/-- The names that an expression uses and that no arrow function around the use binds. -/
def free : Expr → List String
  | .literal _ => []
  | .name id => [id]
  | .template _ parts => freeInParts parts
  | .array items => freeInElements items
  | .object entries => freeInEntries entries
  | .member target key _ => free target ++ free key
  | .call callee args => free callee ++ freeInElements args
  | .unary _ operand => free operand
  | .binary _ left right => free left ++ free right
  | .logical _ left right => free left ++ free right
  | .conditional test yes no => free test ++ free yes ++ free no
  | .arrow params body => (free body).filter fun x => !params.contains x

/-- `free` on elements. -/
def freeInElements : List (Element Expr) → List String
  | [] => []
  | .single e :: rest => free e ++ freeInElements rest
  | .spread e :: rest => free e ++ freeInElements rest

/-- `free` on entries. -/
def freeInEntries : List (Entry Expr) → List String
  | [] => []
  | .pair key value :: rest => free key ++ free value ++ freeInEntries rest
  | .spread e :: rest => free e ++ freeInEntries rest

/-- `free` on the parts of a template. -/
def freeInParts : List (Expr × String) → List String
  | [] => []
  | (e, _) :: rest => free e ++ freeInParts rest

end

/-- Whether all of some names are local names or among the given ones. -/
def Known (names : List String) (locals : Bindings) (used : List String) : Prop :=
  ∀ x ∈ used, x ∈ locals.map Prod.fst ∨ x ∈ names

theorem known_append {names : List String} {locals : Bindings} {used used' : List String} :
    Known names locals (used ++ used') ↔ Known names locals used ∧ Known names locals used' :=
  List.forall_mem_append

end Expr

namespace Value

open Atoll.Expr

variable {names : List String}

/-! ## Sealed values -/

mutual

/-- Whether all functions in a value use only names that they keep themselves or that are among the
given ones, which they look up in the outermost scope. -/
def Sealed (names : List String) : Value → Prop
  | .array _ items => AllSealed names items
  | .object _ entries => EntriesSealed names entries
  | .method _ _ receiver => Sealed names receiver
  | .closure _ params body locals home =>
    Known names locals (Expr.arrow params body).free ∧ NamesSealed names locals ∧ home = 0
  | .undefined => True
  | .null => True
  | .bool _ => True
  | .number _ => True
  | .string _ => True
  | .builtin _ => True
  | .library _ => True
  | .foreign _ _ => True

/-- `Sealed` on lists. -/
def AllSealed (names : List String) : List Value → Prop
  | [] => True
  | v :: vs => Sealed names v ∧ AllSealed names vs

/-- `Sealed` on entries. -/
def EntriesSealed (names : List String) : List (Value × Value) → Prop
  | [] => True
  | (k, v) :: rest => (Sealed names k ∧ Sealed names v) ∧ EntriesSealed names rest

/-- `Sealed` on names with their values. -/
def NamesSealed (names : List String) : List (String × Value) → Prop
  | [] => True
  | (_, v) :: rest => Sealed names v ∧ NamesSealed names rest

end

theorem allSealed_iff {vs : List Value} : AllSealed names vs ↔ ∀ v ∈ vs, v.Sealed names := by
  induction vs with
  | nil => simp [AllSealed]
  | cons v vs ih => simp [AllSealed, ih]

theorem entriesSealed_iff {entries : Entries} :
    EntriesSealed names entries ↔
      ∀ entry ∈ entries, entry.1.Sealed names ∧ entry.2.Sealed names := by
  induction entries with
  | nil => simp [EntriesSealed]
  | cons entry entries ih => simp [EntriesSealed, ih]

theorem namesSealed_iff {locals : Bindings} :
    NamesSealed names locals ↔ ∀ entry ∈ locals, entry.2.Sealed names := by
  induction locals with
  | nil => simp [NamesSealed]
  | cons entry locals ih => simp [NamesSealed, ih]

mutual

/-- Whether there is no function in a value. -/
def isPlain : Value → Bool
  | .array _ items => arePlain items
  | .object _ entries => areEntriesPlain entries
  | v => !v.isFunction

/-- `isPlain` on lists. -/
def arePlain : List Value → Bool
  | [] => true
  | v :: vs => isPlain v && arePlain vs

/-- `isPlain` on entries. -/
def areEntriesPlain : List (Value × Value) → Bool
  | [] => true
  | (k, v) :: rest => isPlain k && isPlain v && areEntriesPlain rest

end

mutual

/-- Where there is no function, none uses a name. -/
theorem sealed_of_isPlain {names : List String} :
    (v : Value) → v.isPlain = true → v.Sealed names
  | .array _ items, h => allSealed_of_arePlain items h
  | .object _ entries, h => entriesSealed_of_arePlain entries h
  | .undefined, _ | .null, _ | .bool _, _ | .number _, _ | .string _, _ | .builtin _, _
  | .library _, _ | .foreign _ _, _ => trivial

theorem allSealed_of_arePlain {names : List String} :
    (vs : List Value) → arePlain vs = true → AllSealed names vs
  | [], _ => trivial
  | v :: vs, h => by
    rw [arePlain, Bool.and_eq_true] at h
    exact ⟨sealed_of_isPlain v h.1, allSealed_of_arePlain vs h.2⟩

theorem entriesSealed_of_arePlain {names : List String} :
    (entries : Entries) → areEntriesPlain entries = true → EntriesSealed names entries
  | [], _ => trivial
  | (k, v) :: rest, h => by
    rw [areEntriesPlain, Bool.and_eq_true, Bool.and_eq_true] at h
    exact ⟨⟨sealed_of_isPlain k h.1.1, sealed_of_isPlain v h.1.2⟩,
      entriesSealed_of_arePlain rest h.2⟩

end

end Value

/-! ## Two computations -/

section

variable {ε α β γ δ : Type} {R : α → β → Prop} {S : γ → δ → Prop}

/-- The two computations fail alike or have results with `R`. -/
def Both (R : α → β → Prop) : Except ε α → Except ε β → Prop
  | .ok a, .ok b => R a b
  | .error e, .error e' => e = e'
  | .ok _, .error _ => False
  | .error _, .ok _ => False

theorem Both.bind {x : Except ε α} {y : Except ε β} {f : α → Except ε γ} {g : β → Except ε δ}
    (h : Both R x y) (hfg : ∀ a b, R a b → Both S (f a) (g b)) : Both S (x >>= f) (y >>= g) := by
  cases x <;> cases y
  case ok.ok a b => exact hfg a b h
  case error.error => exact h
  all_goals cases h

theorem Both.map {x : Except ε α} {y : Except ε β} {f : α → γ} {g : β → δ} (h : Both R x y)
    (hfg : ∀ a b, R a b → S (f a) (g b)) : Both S (x.map f) (y.map g) := by
  cases x <;> cases y
  case ok.ok a b => exact hfg a b h
  case error.error => exact h
  all_goals cases h

/-- The same step before two computations. -/
theorem Both.after (x : Except ε α) {f : α → Except ε γ} {g : α → Except ε δ}
    (h : ∀ a, Both S (f a) (g a)) : Both S (x >>= f) (x >>= g) := by
  cases x with
  | ok a => exact h a
  | error e => exact rfl

end

/-- A computation twice. -/
theorem Both.self {ε α : Type} {R : α → α → Prop} {x : Except ε α}
    (h : Ends (fun _ => True) (fun a => R a a) x) : Both R x x := by
  cases x with
  | ok a => exact h
  | error e => exact rfl

/-- Any computation fails or has a result. -/
theorem ends_true {ε α : Type} (x : Except ε α) : FailsWith (fun _ => True) x := by
  cases x <;> trivial

/-! ## Twins -/

/-- Whether all labels under a label stay as they are. -/
def Fixes (σ : Label → Label) (label : Label) : Prop :=
  ∀ l, label <:+ l → σ l = l

theorem Fixes.self {σ : Label → Label} {label : Label} (h : Fixes σ label) : σ label = label :=
  h label (List.suffix_refl label)

theorem Fixes.cons {σ : Label → Label} {label : Label} (h : Fixes σ label) (i : Nat) :
    Fixes σ (i :: label) :=
  fun l hl => h l ((List.suffix_cons i label).trans hl)

namespace Value

open Atoll.Expr

variable {vs ws args args' : List Value} {v w : Value} {label : Label} {es fs : Entries}

/-- Whether one value stands for another one in a second evaluation: it has other labels, and the
functions in it use only the given names. -/
structure Twin (σ : Label → Label) (names : List String) (v w : Value) : Prop where
  eq_relabel : w = v.relabel σ
  isSealed : v.Sealed names

/-- `Twin` on lists. -/
structure Twins (σ : Label → Label) (names : List String) (vs ws : List Value) : Prop where
  eq_relabel : ws = vs.map (relabel σ)
  isSealed : ∀ v ∈ vs, v.Sealed names

/-- `Twin` on entries. -/
structure EntryTwins (σ : Label → Label) (names : List String) (es fs : Entries) : Prop where
  eq_relabel : fs = es.map (Prod.map (relabel σ) (relabel σ))
  isSealed : ∀ entry ∈ es, entry.1.Sealed names ∧ entry.2.Sealed names

/-- The result, if there is one, is its own twin: nothing in it came from around the evaluation. -/
abbrev Settled (σ : Label → Label) (names : List String) (x : Except Fault Value) : Prop :=
  Ends (fun _ => True) (fun v => Twin σ names v v) x

variable {σ : Label → Label} {names : List String}

theorem Twins.nil : Twins σ names [] [] :=
  ⟨rfl, by simp⟩

theorem Twins.cons (h : Twin σ names v w)
    (hs : Twins σ names vs ws) : Twins σ names (v :: vs) (w :: ws) := by
  obtain ⟨rfl, hv⟩ := h
  obtain ⟨rfl, hvs⟩ := hs
  exact ⟨rfl, List.forall_mem_cons.2 ⟨hv, hvs⟩⟩

theorem Twins.append {vs' ws' : List Value} (h : Twins σ names vs ws)
    (h' : Twins σ names vs' ws') : Twins σ names (vs ++ vs') (ws ++ ws') := by
  obtain ⟨rfl, hvs⟩ := h
  obtain ⟨rfl, hvs'⟩ := h'
  exact ⟨List.map_append.symm, List.forall_mem_append.2 ⟨hvs, hvs'⟩⟩

theorem Twins.length_eq (h : Twins σ names vs ws) : ws.length = vs.length := by
  rw [h.eq_relabel, List.length_map]

theorem EntryTwins.nil : EntryTwins σ names [] [] :=
  ⟨rfl, by simp⟩

theorem EntryTwins.cons {k k' v' : Value} (hk : Twin σ names k k') (hv : Twin σ names v v')
    (hs : EntryTwins σ names es fs) : EntryTwins σ names ((k, v) :: es) ((k', v') :: fs) := by
  obtain ⟨rfl, hk⟩ := hk
  obtain ⟨rfl, hv⟩ := hv
  obtain ⟨rfl, hes⟩ := hs
  exact ⟨rfl, List.forall_mem_cons.2 ⟨⟨hk, hv⟩, hes⟩⟩

/-- The items of a sealed list have twins. -/
theorem twins_of_allSealed (h : AllSealed names vs) : Twins σ names vs (relabelAll σ vs) :=
  ⟨relabelAll_eq_map σ vs, allSealed_iff.1 h⟩

theorem entryTwins_of_sealed (h : EntriesSealed names es) :
    EntryTwins σ names es (relabelEntries σ es) :=
  ⟨relabelEntries_eq_map σ es, entriesSealed_iff.1 h⟩

/-- Twins in lists make twins of the lists. -/
theorem Twins.array (h : Twins σ names vs ws)
    (hl : σ label = label) : Twin σ names (.array label vs) (.array label ws) := by
  obtain ⟨rfl, hvs⟩ := h
  exact ⟨by rw [relabel, hl, relabelAll_eq_map], allSealed_iff.2 hvs⟩

theorem EntryTwins.object (h : EntryTwins σ names es fs)
    (hl : σ label = label) : Twin σ names (.object label es) (.object label fs) := by
  obtain ⟨rfl, hes⟩ := h
  exact ⟨by rw [relabel, hl, relabelEntries_eq_map], entriesSealed_iff.2 hes⟩

theorem Settled.map {α : Type} (x : Except Fault α) {f : α → Value}
    (hf : ∀ a, Twin σ names (f a) (f a)) : Settled σ names (x.map f) :=
  Ends.map (ends_true x) fun a _ => hf a

theorem Settled.bind {α : Type} (x : Except Fault α) {f : α → Except Fault Value}
    (hf : ∀ a, Settled σ names (f a)) : Settled σ names (x >>= f) :=
  Ends.bind (ends_true x) fun a _ => hf a

/-! ### Operators

Operators make texts, numbers and truth values, in which there is nothing to relabel. -/

theorem add_settled (a b : Value) : Settled σ names (add a b) := by
  refine .bind _ fun a => .bind _ fun b => ?_
  split
  · exact .bind _ fun s => .bind _ fun t => ⟨rfl, trivial⟩
  · exact .bind _ fun x => .bind _ fun y => .bind _ fun n => ⟨rfl, trivial⟩

theorem arithmetic_settled (op : Number → Number → Except Trouble Number) (a b : Value) :
    Settled σ names (arithmetic op a b) :=
  .bind _ fun _ => .bind _ fun _ => .bind _ fun _ => ⟨rfl, trivial⟩

theorem binary_settled (op : BinaryOp) (a b : Value) : Settled σ names (binary op a b) := by
  cases op with
  | strictEq => exact ⟨rfl, trivial⟩
  | strictNe => exact ⟨rfl, trivial⟩
  | add => exact add_settled a b
  | sub => exact arithmetic_settled _ a b
  | mul => exact arithmetic_settled _ a b
  | div => exact arithmetic_settled _ a b
  | rem => exact arithmetic_settled _ a b
  | _ => exact .map _ fun r => ⟨rfl, trivial⟩

theorem unary_settled (op : UnaryOp) (v : Value) : Settled σ names (v.unary op) := by
  cases op with
  | typeof => exact ⟨rfl, trivial⟩
  | _ => exact .map _ fun r => ⟨rfl, trivial⟩

theorem binary_twin (hσ : Function.Injective σ) (op : BinaryOp) {a a' b b' : Value}
    (ha : Twin σ names a a') (hb : Twin σ names b b') :
    Both (Twin σ names) (binary op a b) (binary op a' b') := by
  rw [ha.eq_relabel, hb.eq_relabel, binary_relabel hσ]
  exact .self (binary_settled op a b)

theorem unary_twin (op : UnaryOp) (h : Twin σ names v w) :
    Both (Twin σ names) (v.unary op) (w.unary op) := by
  rw [h.eq_relabel, unary_relabel]
  exact .self (unary_settled op v)

/-! ### Members -/

/-- A member of a library is a number or a function of it. -/
theorem libraryMember_twin (l : Library) (key : String) :
    Twin σ names ((l.member? key).getD .undefined) ((l.member? key).getD .undefined) := by
  fun_cases Library.member? l key with
  | case1 => exact ⟨rfl, trivial⟩
  | case2 => exact ⟨rfl, trivial⟩
  | case3 => cases l.functions.find? (·.name == key) <;> exact ⟨rfl, trivial⟩

theorem get?_twin (h : EntryTwins σ names es fs) (text : String) :
    Twin σ names ((Entries.get? es text).getD .undefined)
      ((Entries.get? fs text).getD .undefined) := by
  obtain ⟨rfl, hes⟩ := h
  have hkey : (fun entry : Value × Value => Entries.isText text entry.1) ∘
      Prod.map (relabel σ) (relabel σ) = fun entry => Entries.isText text entry.1 :=
    funext fun entry => isText_relabel σ text entry.1
  rw [Entries.get?, Entries.get?, List.find?_map, hkey]
  cases hfind : es.find? fun entry => Entries.isText text entry.1 with
  | none => exact ⟨rfl, trivial⟩
  | some entry => exact ⟨rfl, (hes entry (List.mem_of_find?_eq_some hfind)).2⟩

/-- Twins in a list stand at the same places. -/
theorem getElem?_twin (h : Twins σ names vs ws) (i : Nat) :
    Twin σ names (vs[i]?.getD .undefined) (ws[i]?.getD .undefined) := by
  obtain ⟨rfl, hvs⟩ := h
  rw [List.getElem?_map]
  cases hi : vs[i]? with
  | none => exact ⟨rfl, trivial⟩
  | some v => exact ⟨rfl, hvs v (List.mem_of_getElem? hi)⟩

theorem named_twin (hl : σ label = label) (h : Twin σ names v w) (length : Nat)
    (method? : String → Option Method) (key : String) :
    Twin σ names (named label v length method? key) (named label w length method? key) := by
  obtain ⟨rfl, hv⟩ := h
  rw [named, named]
  split
  · exact ⟨rfl, trivial⟩
  · split
    · exact ⟨by rw [relabel, hl], hv⟩
    · exact ⟨rfl, trivial⟩

/-- A method of a number or a truth value, taken out of it. -/
theorem numberMember_twin (hl : σ label = label) (h : Twin σ names v w) (m : Option NumberMethod) :
    Twin σ names (m.elim .undefined fun m => .method label (.number m) v)
      (m.elim .undefined fun m => .method label (.number m) w) := by
  obtain ⟨rfl, hv⟩ := h
  cases m with
  | none => exact ⟨rfl, trivial⟩
  | some m => exact ⟨congrArg (method · (.number m) _) hl.symm, hv⟩

/-- **Twins have twins as members.** -/
theorem member_twin (hl : σ label = label) {k k' : Value} (h : Twin σ names v w)
    (hk : Twin σ names k k') : Both (Twin σ names) (v.member label k) (w.member label k') := by
  have htext : k'.toText = k.toText := by rw [hk.eq_relabel, toText_relabel]
  have hindex : k'.index? = k.index? := by rw [hk.eq_relabel, index?_relabel]
  have hvw := h
  obtain ⟨rfl, hv⟩ := h
  cases v with
  | undefined => simp only [relabel, member, htext]; exact .after _ fun s => rfl
  | null => simp only [relabel, member, htext]; exact .after _ fun s => rfl
  | library l =>
    simp only [relabel, member, htext]
    exact .after _ fun s => libraryMember_twin l s
  | object label' entries =>
    simp only [relabel, member, htext]
    exact .after _ fun s => get?_twin (entryTwins_of_sealed hv) s
  | string s =>
    simp only [relabel, member, htext, hindex]
    refine .after _ fun i => ?_
    cases i with
    | none => exact .after _ fun key => named_twin hl hvw _ _ key
    | some i => cases hc : s.toList[i]? <;> simp only [hc] <;> exact ⟨rfl, trivial⟩
  | array label' items =>
    have hitems : Twins σ names items (relabelAll σ items) := twins_of_allSealed hv
    simp only [relabel, member, htext, hindex, hitems.length_eq]
    refine .after _ fun i => ?_
    cases i with
    | none => exact .after _ fun key => named_twin hl hvw _ _ key
    | some i => exact getElem?_twin hitems i
  | number n =>
    simp only [relabel, member, htext]
    exact .after _ fun key => numberMember_twin hl hvw _
  | bool b =>
    simp only [relabel, member, htext]
    exact .after _ fun key => numberMember_twin hl hvw _
  | _ => exact ⟨rfl, trivial⟩

/-! ### Methods of texts and numbers -/

theorem Twin.string (s : String) : Twin σ names (.string s) (.string s) :=
  ⟨rfl, trivial⟩

theorem stringArray_twin (hl : σ label = label) (texts : List (List Char)) :
    Twin σ names (stringArray label texts) (stringArray label texts) := by
  refine Twins.array ⟨?_, ?_⟩ hl
  · rw [List.map_map]; rfl
  · intro v hv
    obtain ⟨cs, -, rfl⟩ := List.mem_map.1 hv
    trivial

theorem callString_settled (hl : σ label = label) (m : StringMethod) (text : String)
    (args : List Value) : Settled σ names (callString label m text args) := by
  unfold callString
  dsimp only
  split
  -- nothing to convert
  case h_1 | h_2 | h_3 | h_4 | h_5 | h_11 | h_14 | h_27 | h_31 => exact ⟨rfl, trivial⟩
  case h_15 | h_16 => exact .map _ fun _ => ⟨rfl, trivial⟩
  case h_6 | h_7 | h_8 | h_9 | h_10 | h_12 | h_13 | h_23 | h_24 | h_25 | h_26 | h_28 | h_30 =>
    exact .bind _ fun _ => ⟨rfl, trivial⟩
  case h_20 | h_21 | h_22 => exact .bind _ fun _ => .bind _ fun _ => ⟨rfl, trivial⟩
  -- a character or undefined
  case h_29 i =>
    refine .bind _ fun i => ?_
    cases itemAt? text.toList i <;> exact ⟨rfl, trivial⟩
  -- lists of texts
  case h_17 => exact stringArray_twin hl _
  case h_18 => exact .map _ fun parts => stringArray_twin hl parts
  case h_19 => exact .bind _ fun _ => .bind _ fun parts => stringArray_twin hl parts
  case h_32 => trivial

theorem callNumber_settled (m : NumberMethod) (v : Value) (args : List Value) :
    Settled σ names (callNumber m v args) := by
  have hfixed : ∀ places, Settled σ names (toFixed v places) := fun places =>
    .bind _ fun _ => .bind _ fun _ => .bind _ fun _ => ⟨rfl, trivial⟩
  unfold callNumber
  split
  · exact hfixed _
  · exact hfixed _
  · exact .map _ fun _ => ⟨rfl, trivial⟩
  · trivial

/-! ### Methods of lists -/

section

variable {call call' : Caller}
  (hcall : ∀ i f f' args args', Twin σ names f f' → Twins σ names args args' →
    Both (Twin σ names) (call i f args) (call' i f' args'))
  {f f' : Value} (hf : Twin σ names f f')
include hcall hf

/-- A call back on an item and its place. -/
theorem callItem_twin (i : Nat) (hv : v.Sealed names) :
    Both (Twin σ names) (call i f [v, .ofInt i]) (call' i f' [v.relabel σ, .ofInt i]) :=
  hcall i f f' _ _ hf (.cons ⟨rfl, hv⟩ (.cons ⟨rfl, trivial⟩ .nil))

theorem mapItems_twins (i : Nat) (h : Twins σ names vs ws) :
    Both (Twins σ names) (mapItems call f i vs) (mapItems call' f' i ws) := by
  obtain ⟨rfl, hvs⟩ := h
  induction vs generalizing i with
  | nil => exact .nil
  | cons v vs ih =>
    obtain ⟨hv, hvs⟩ := List.forall_mem_cons.1 hvs
    exact (callItem_twin hcall hf i hv).bind fun r r' hr =>
      (ih (i + 1) hvs).bind fun rs rs' hrs => .cons hr hrs

theorem filterItems_twins (i : Nat) (h : Twins σ names vs ws) :
    Both (Twins σ names) (filterItems call f i vs) (filterItems call' f' i ws) := by
  obtain ⟨rfl, hvs⟩ := h
  induction vs generalizing i with
  | nil => exact .nil
  | cons v vs ih =>
    obtain ⟨hv, hvs⟩ := List.forall_mem_cons.1 hvs
    refine (callItem_twin hcall hf i hv).bind fun r r' hr => ?_
    rw [hr.eq_relabel, truthy_relabel]
    refine .after _ fun keep => (ih (i + 1) hvs).bind fun rs rs' hrs => ?_
    cases keep with
    | true => exact .cons ⟨rfl, hv⟩ hrs
    | false => exact hrs

theorem findItem_twin (wanted : Bool) (i : Nat) (h : Twins σ names vs ws) :
    Both (Option.Rel fun a b => a.1 = b.1 ∧ Twin σ names a.2 b.2)
      (findItem call f wanted i vs) (findItem call' f' wanted i ws) := by
  obtain ⟨rfl, hvs⟩ := h
  induction vs generalizing i with
  | nil => exact .none
  | cons v vs ih =>
    obtain ⟨hv, hvs⟩ := List.forall_mem_cons.1 hvs
    refine (callItem_twin hcall hf i hv).bind fun r r' hr => ?_
    rw [hr.eq_relabel, truthy_relabel]
    refine .after _ fun t => ?_
    split
    · exact .some ⟨rfl, rfl, hv⟩
    · exact ih (i + 1) hvs

theorem reduceItems_twin (i : Nat) {acc acc' : Value} (hacc : Twin σ names acc acc')
    (h : Twins σ names vs ws) :
    Both (Twin σ names) (reduceItems call f i acc vs) (reduceItems call' f' i acc' ws) := by
  obtain ⟨rfl, hvs⟩ := h
  induction vs generalizing i acc acc' with
  | nil => exact hacc
  | cons v vs ih =>
    obtain ⟨hv, hvs⟩ := List.forall_mem_cons.1 hvs
    have hargs : Twins σ names [acc, v, .ofInt i] [acc', v.relabel σ, .ofInt i] :=
      .cons hacc (.cons ⟨rfl, hv⟩ (.cons ⟨rfl, trivial⟩ .nil))
    exact (hcall i f f' _ _ hf hargs).bind fun acc acc' hacc => ih (i + 1) hacc hvs

end

theorem flatten_twins (h : Twins σ names vs ws) : Twins σ names (flatten vs) (flatten ws) := by
  obtain ⟨rfl, hvs⟩ := h
  induction vs with
  | nil => exact .nil
  | cons v vs ih =>
    obtain ⟨hv, hvs⟩ := List.forall_mem_cons.1 hvs
    refine Twins.append ?_ (ih hvs)
    cases v with
    | array label items => exact twins_of_allSealed hv
    | _ => exact .cons ⟨rfl, hv⟩ .nil

/-- Part of a list, in any order. -/
theorem Twins.sub {us : List Value} (h : Twins σ names vs ws) (hus : us ⊆ vs) :
    Twins σ names us (us.map (relabel σ)) :=
  ⟨rfl, fun v hv => h.isSealed v (hus hv)⟩

theorem between_twins (h : Twins σ names vs ws) (lo hi : Nat) :
    Twins σ names (between lo hi vs) (between lo hi ws) := by
  have hsub : between lo hi vs ⊆ vs :=
    fun v hv => List.mem_of_mem_take (List.mem_of_mem_drop hv)
  have hmap : between lo hi ws = (between lo hi vs).map (relabel σ) := by
    rw [h.eq_relabel, between, between, List.map_drop, List.map_take]
  exact hmap ▸ h.sub hsub

theorem reverse_twins (h : Twins σ names vs ws) : Twins σ names vs.reverse ws.reverse := by
  have hsub : vs.reverse ⊆ vs := fun v hv => List.mem_reverse.1 hv
  have hmap : ws.reverse = vs.reverse.map (relabel σ) := by rw [h.eq_relabel, List.map_reverse]
  exact hmap ▸ h.sub hsub

theorem itemAt?_twin (h : Twins σ names vs ws) (i : Int) :
    Twin σ names ((itemAt? vs i).getD .undefined) ((itemAt? ws i).getD .undefined) := by
  rw [itemAt?, itemAt?, h.length_eq]
  split
  · exact getElem?_twin h _
  · split
    · exact getElem?_twin h _
    · exact ⟨rfl, trivial⟩

theorem includes_twins (hσ : Function.Injective σ) (h : Twins σ names vs ws) {x y : Value}
    (hxy : Twin σ names x y) :
    (ws.any fun v => strictEq v y || bothNaN v y) =
      vs.any fun v => strictEq v x || bothNaN v x := by
  rw [h.eq_relabel, hxy.eq_relabel, List.any_map]
  simp only [Function.comp_def, strictEq_relabel hσ, bothNaN_relabel]

theorem join_twin {s t : Value} (hs : Twin σ names s t)
    (h : Twins σ names vs ws) : Both (Twin σ names) (join s vs) (join t ws) := by
  have htext : ∀ mark : String,
      Settled σ names (do .ok (.string (mark.intercalate (← itemTexts vs)))) :=
    fun mark => .bind _ fun texts => Twin.string _
  rw [hs.eq_relabel, h.eq_relabel, join_relabel, join]
  split
  · exact .self (htext ",")
  · exact .self (Settled.bind _ htext)

theorem indexOf_twin (hσ : Function.Injective σ) (h : Twins σ names vs ws) {x y s t : Value}
    (hx : Twin σ names x y) (hs : Twin σ names s t) :
    Both (Twin σ names) (indexOf vs x s) (indexOf ws y t) := by
  rw [h.eq_relabel, hx.eq_relabel, hs.eq_relabel, indexOf_relabel hσ]
  exact .self (Settled.bind _ fun _ => ⟨rfl, trivial⟩)

/-- Calls with as many arguments are refused alike. -/
theorem refuse_both (s : Signature) (h : Twins σ names args args')
    (n : Nat) : Both (Twin σ names) (.error (s.refuse (args.length + n)))
      (.error (s.refuse (args'.length + n))) := by
  rw [h.length_eq]
  exact rfl

theorem slice_twin (hl : σ label = label) (h : Twins σ names vs ws) {a a' b b' : Value}
    (ha : Twin σ names a a') (hb : Twin σ names b b') :
    Both (Twin σ names)
      (do let (lo, hi) ← sliceBounds vs.length a b; .ok (.array label (between lo hi vs)))
      (do let (lo, hi) ← sliceBounds ws.length a' b'; .ok (.array label (between lo hi ws))) := by
  rw [h.length_eq, ha.eq_relabel, hb.eq_relabel, sliceBounds_relabel]
  exact .after _ fun bounds => (between_twins h _ _).array hl

section

variable (hσ : Function.Injective σ) {call call' : Caller}
  (hcall : ∀ i f f' args args', Twin σ names f f' → Twins σ names args args' →
    Both (Twin σ names) (call i f args) (call' i f' args')) (hl : σ label = label)
include hσ hcall hl

/-- A method of a list makes twins of twins, if what it calls back does. -/
theorem callArray_twin (m : ArrayMethod) (h : Twins σ names vs ws)
    (hargs : Twins σ names args args') :
    Both (Twin σ names) (callArray call label m vs args) (callArray call' label m ws args') := by
  have hrefuse := refuse_both m.signature hargs 1
  obtain ⟨rfl, hsealed⟩ := hargs
  have harg : ∀ v ∈ args, Twin σ names v (v.relabel σ) := fun v hv => ⟨rfl, hsealed v hv⟩
  rcases args with _ | ⟨a, _ | ⟨b, _ | ⟨c, rest⟩⟩⟩ <;> cases m
  -- texts, places and truth values
  case nil.join => exact join_twin (Twin.string ",") h
  case cons.nil.join => exact join_twin (harg a (.head _)) h
  case cons.nil.includes | cons.cons.nil.includes | cons.cons.cons.includes =>
    exact ⟨congrArg Value.bool (includes_twins hσ h (harg a (.head _))), trivial⟩
  case cons.nil.indexOf => exact indexOf_twin hσ h (harg a (.head _)) ⟨rfl, trivial⟩
  case cons.cons.nil.indexOf =>
    exact indexOf_twin hσ h (harg a (.head _)) (harg b (.tail _ (.head _)))
  case nil.toString =>
    have hlist := h.array hl
    simp only [callArray, List.map_nil, hlist.eq_relabel, toText_relabel]
    exact .self (Settled.map _ Twin.string)
  -- lists of some of the items
  case nil.slice => exact h.array hl
  case cons.nil.slice => exact slice_twin hl h (harg a (.head _)) ⟨rfl, trivial⟩
  case cons.cons.nil.slice =>
    exact slice_twin hl h (harg a (.head _)) (harg b (.tail _ (.head _)))
  case nil.concat | cons.nil.concat | cons.cons.nil.concat | cons.cons.cons.concat =>
    exact (h.append (flatten_twins ⟨rfl, hsealed⟩)).array hl
  case cons.nil.at =>
    simp only [callArray, List.map_cons, List.map_nil, toInt_relabel]
    exact .after _ fun i => itemAt?_twin h i
  case nil.flat => exact (flatten_twins h).array hl
  case nil.toReversed => exact (reverse_twins h).array hl
  -- methods that call back
  case cons.nil.map =>
    exact (mapItems_twins hcall (harg a (.head _)) 0 h).map fun rs rs' hrs => hrs.array hl
  case cons.nil.filter =>
    exact (filterItems_twins hcall (harg a (.head _)) 0 h).map fun rs rs' hrs => hrs.array hl
  case cons.nil.find =>
    refine (findItem_twin hcall (harg a (.head _)) true 0 h).map fun r r' hr => ?_
    cases hr with
    | none => exact ⟨rfl, trivial⟩
    | some hitem => exact hitem.2
  case cons.nil.findIndex =>
    refine (findItem_twin hcall (harg a (.head _)) true 0 h).map fun r r' hr => ?_
    cases hr with
    | none => exact ⟨rfl, trivial⟩
    | some hitem => exact ⟨congrArg (fun i => placeOrMinus (some i)) hitem.1.symm, trivial⟩
  case cons.nil.some =>
    refine (findItem_twin hcall (harg a (.head _)) true 0 h).map fun r r' hr => ?_
    cases hr <;> exact ⟨rfl, trivial⟩
  case cons.nil.every =>
    refine (findItem_twin hcall (harg a (.head _)) false 0 h).map fun r r' hr => ?_
    cases hr <;> exact ⟨rfl, trivial⟩
  case cons.cons.nil.reduce | cons.cons.cons.reduce =>
    exact reduceItems_twin hcall (harg a (.head _)) 0 (harg b (.tail _ (.head _))) h
  case cons.nil.reduce =>
    obtain ⟨rfl, hvs⟩ := h
    cases vs with
    | nil => exact rfl
    | cons v vs =>
      obtain ⟨hv, hvs⟩ := List.forall_mem_cons.1 hvs
      exact reduceItems_twin hcall (harg a (.head _)) 1 ⟨rfl, hv⟩ ⟨rfl, hvs⟩
  all_goals exact hrefuse

/-- **A method makes twins of twins**, if what it calls back does. -/
theorem callMethod_twin (m : Method) (h : Twin σ names v w) (hargs : Twins σ names args args') :
    Both (Twin σ names) (callMethod call label m v args) (callMethod call' label m w args') := by
  obtain ⟨rfl, hv⟩ := h
  cases m with
  | string m =>
    cases v with
    | string s =>
      rw [hargs.eq_relabel, relabel, callMethod, callMethod, callString_relabel]
      exact .self (callString_settled hl m s args)
    | _ => exact rfl
  | array m =>
    cases v with
    | array label' items =>
      exact callArray_twin hσ hcall hl m (twins_of_allSealed hv) hargs
    | _ => exact rfl
  | number m =>
    rw [hargs.eq_relabel, callMethod, callMethod, callNumber_relabel]
    exact .self (callNumber_settled m v args)

end

/-! ### Functions -/

mutual

/-- What data gives has labels under the given one only. -/
theorem ofDatum_twin : (d : Datum) → {label : Label} → Fixes σ label →
    Twin σ names (ofDatum label d) (ofDatum label d)
  | .null, _, _ | .bool _, _, _ | .int _, _, _ | .float _, _, _ | .string _, _, _ => ⟨rfl, trivial⟩
  | .moment m, _, hl => ⟨congrArg (foreign · m.kind) hl.self.symm, trivial⟩
  | .array items, _, hl => (ofData_twins items 0 hl).array hl.self
  | .object entries, _, hl => (ofDataEntries_twins entries 0 hl).object hl.self

theorem ofData_twins : (items : List Datum) → (i : Nat) → {label : Label} → Fixes σ label →
    Twins σ names (ofData label i items) (ofData label i items)
  | [], _, _, _ => .nil
  | d :: ds, i, _, hl => .cons (ofDatum_twin d (hl.cons i)) (ofData_twins ds (i + 1) hl)

theorem ofDataEntries_twins : (entries : List (String × Datum)) → (i : Nat) → {label : Label} →
    Fixes σ label →
      EntryTwins σ names (ofDataEntries label i entries) (ofDataEntries label i entries)
  | [], _, _, _ => .nil
  | (k, d) :: ds, i, _, hl =>
    .cons (Twin.string k) (ofDatum_twin d (hl.cons i)) (ofDataEntries_twins ds (i + 1) hl)

end

theorem parseJson_settled (hl : Fixes σ label) (v : Value) :
    Settled σ names (parseJson label v) := by
  refine .bind _ fun text => ?_
  split
  · exact ofDatum_twin _ hl
  · trivial
  · trivial
  · trivial

theorem stringify_settled (v indent : Value) : Settled σ names (stringify v indent) := by
  unfold stringify
  split
  · exact ⟨rfl, trivial⟩
  · refine .bind _ fun data => ?_
    split
    · exact ⟨rfl, trivial⟩
    · refine .bind _ fun width => ?_
      split
      · exact ⟨rfl, trivial⟩
      · exact .bind _ fun unit => ⟨rfl, trivial⟩

theorem onNumber_settled (f : Number → Except Trouble Int) (v : Value) :
    Settled σ names (onNumber f v) :=
  .bind _ fun _ => .bind _ fun _ => ⟨rfl, trivial⟩

theorem extreme_settled (before : Number → Number → Bool) (ifNone : Float) (args : List Value) :
    Settled σ names (extreme before ifNone args) := by
  refine .bind _ fun numbers => ?_
  split
  · exact ⟨rfl, trivial⟩
  · refine .bind _ fun nan => ?_
    split
    · exact ⟨rfl, trivial⟩
    · exact ⟨rfl, trivial⟩

/-- The entries of an object, or none. -/
theorem entriesOf_twins (h : Twin σ names v w) :
    EntryTwins σ names (entriesOf v) (entriesOf w) := by
  obtain ⟨rfl, hv⟩ := h
  cases v with
  | object label entries => exact entryTwins_of_sealed hv
  | _ => exact .nil

theorem EntryTwins.keys (h : EntryTwins σ names es fs) :
    Twins σ names (es.map Prod.fst) (fs.map Prod.fst) := by
  obtain ⟨rfl, hes⟩ := h
  refine ⟨by rw [List.map_map, List.map_map]; rfl, fun v hv => ?_⟩
  obtain ⟨entry, hentry, rfl⟩ := List.mem_map.1 hv
  exact (hes entry hentry).1

theorem EntryTwins.values (h : EntryTwins σ names es fs) :
    Twins σ names (es.map Prod.snd) (fs.map Prod.snd) := by
  obtain ⟨rfl, hes⟩ := h
  refine ⟨by rw [List.map_map, List.map_map]; rfl, fun v hv => ?_⟩
  obtain ⟨entry, hentry, rfl⟩ := List.mem_map.1 hv
  exact (hes entry hentry).2

theorem mapIdx_twins (h : EntryTwins σ names es fs) {f : Nat → Value × Value → Value}
    (hf : ∀ i k v, Sealed names k → Sealed names v →
      Twin σ names (f i (k, v)) (f i (k.relabel σ, v.relabel σ))) :
    Twins σ names (es.mapIdx f) (fs.mapIdx f) := by
  obtain ⟨rfl, hes⟩ := h
  induction es generalizing f with
  | nil => exact .nil
  | cons entry es ih =>
    obtain ⟨⟨hk, hv⟩, hes⟩ := List.forall_mem_cons.1 hes
    rw [List.map_cons, List.mapIdx_cons, List.mapIdx_cons]
    exact .cons (hf 0 _ _ hk hv) (ih (fun i => hf (i + 1)) hes)

/-- **A function that every expression can name makes twins of twins.** -/
theorem callBuiltin_twin (hl : Fixes σ label) (f : Builtin) (hargs : Twins σ names args args') :
    Both (Twin σ names) (callBuiltin label f args) (callBuiltin label f args') := by
  have hrefuse := refuse_both f.signature hargs 0
  obtain ⟨rfl, hsealed⟩ := hargs
  have hentries : ∀ v ∈ args, EntryTwins σ names (entriesOf v) (entriesOf (v.relabel σ)) :=
    fun v hv => entriesOf_twins ⟨rfl, hsealed v hv⟩
  rcases args with _ | ⟨a, _ | ⟨b, _ | ⟨c, _ | ⟨d, rest⟩⟩⟩⟩ <;> cases f
  -- numbers
  case cons.nil.floor | cons.nil.ceil | cons.nil.trunc =>
    simp only [callBuiltin, List.map_cons, List.map_nil, onNumber_relabel]
    exact .self (onNumber_settled _ a)
  case cons.nil.round | cons.nil.sqrt =>
    simp only [callBuiltin, List.map_cons, List.map_nil, toNumber_relabel]
    exact .self (Settled.bind _ fun n => .bind _ fun m => ⟨rfl, trivial⟩)
  case cons.nil.abs | cons.nil.sign =>
    simp only [callBuiltin, List.map_cons, List.map_nil, toNumber_relabel]
    exact .self (Settled.bind _ fun n => ⟨rfl, trivial⟩)
  case cons.cons.nil.pow =>
    simp only [callBuiltin, List.map_cons, List.map_nil, arithmetic_relabel]
    exact .self (arithmetic_settled _ a b)
  case nil.min | cons.nil.min | cons.cons.nil.min | cons.cons.cons.nil.min
      | cons.cons.cons.cons.min | nil.max | cons.nil.max | cons.cons.nil.max
      | cons.cons.cons.nil.max | cons.cons.cons.cons.max =>
    rw [callBuiltin, callBuiltin, extreme_relabel]
    exact .self (extreme_settled _ _ _)
  -- written values
  case cons.nil.stringify | cons.cons.nil.stringify =>
    have hcompact := stringify_relabel σ a .undefined
    rw [relabel] at hcompact
    simp only [callBuiltin, List.map_cons, List.map_nil, hcompact]
    exact .self (stringify_settled a _)
  case cons.cons.cons.nil.stringify =>
    simp only [callBuiltin, List.map_cons, List.map_nil, stringify_relabel]
    exact .self (stringify_settled a c)
  case cons.nil.parse =>
    simp only [callBuiltin, List.map_cons, List.map_nil, parseJson_relabel]
    exact .self (parseJson_settled hl a)
  -- conversions
  case nil.string | nil.number | nil.boolean => exact ⟨rfl, trivial⟩
  case cons.nil.string =>
    simp only [callBuiltin, List.map_cons, List.map_nil, toText_relabel]
    exact .self (Settled.map _ Twin.string)
  case cons.nil.number =>
    simp only [callBuiltin, List.map_cons, List.map_nil, toNumber_relabel]
    exact .self (Settled.map _ fun n => ⟨rfl, trivial⟩)
  case cons.nil.boolean =>
    simp only [callBuiltin, List.map_cons, List.map_nil, truthy_relabel]
    exact .self (Settled.map _ fun b => ⟨rfl, trivial⟩)
  case cons.nil.isArray => cases a <;> exact ⟨rfl, trivial⟩
  case cons.cons.nil.isArray | cons.cons.cons.nil.isArray | cons.cons.cons.cons.isArray =>
    cases a <;> exact hrefuse
  -- entries
  case cons.nil.keys => exact (hentries a (.head _)).keys.array hl.self
  case cons.nil.values => exact (hentries a (.head _)).values.array hl.self
  case cons.nil.entries =>
    refine (mapIdx_twins (hentries a (.head _)) fun i k v hk hv => ?_).array hl.self
    exact (Twins.cons ⟨rfl, hk⟩ (.cons ⟨rfl, hv⟩ .nil)).array (hl.cons i).self
  all_goals exact hrefuse

/-! ### Entries -/

theorem set_twins (hσ : Function.Injective σ) {k k' v' : Value} (hk : Twin σ names k k')
    (hv : Twin σ names v v') (h : EntryTwins σ names es fs) :
    EntryTwins σ names (Entries.set k v es) (Entries.set k' v' fs) := by
  obtain ⟨rfl, hes⟩ := h
  induction es with
  | nil => exact .cons hk hv .nil
  | cons entry es ih =>
    obtain ⟨⟨hkey, hvalue⟩, hes⟩ := List.forall_mem_cons.1 hes
    rw [List.map_cons, Prod.map, Entries.set, Entries.set, hk.eq_relabel, sameKey_relabel hσ]
    split
    · exact .cons ⟨rfl, hkey⟩ hv ⟨rfl, hes⟩
    · exact .cons ⟨rfl, hkey⟩ ⟨rfl, hvalue⟩ (hk.eq_relabel ▸ ih hes)

theorem setAll_twins (hσ : Function.Injective σ) {new new' : Entries} (h : EntryTwins σ names es fs)
    (hnew : EntryTwins σ names new new') :
    EntryTwins σ names (Entries.setAll es new) (Entries.setAll fs new') := by
  obtain ⟨rfl, hsealed⟩ := hnew
  induction new generalizing es fs with
  | nil => exact h
  | cons entry new ih =>
    obtain ⟨⟨hkey, hvalue⟩, hsealed⟩ := List.forall_mem_cons.1 hsealed
    exact ih (set_twins hσ ⟨rfl, hkey⟩ ⟨rfl, hvalue⟩ h) hsealed

/-- What a twin gives when it is spread into an object. -/
theorem spreadEntries_twins (h : Twin σ names v w) :
    EntryTwins σ names (spreadEntries v) (spreadEntries w) := by
  obtain ⟨rfl, hv⟩ := h
  cases v with
  | object label entries => exact entryTwins_of_sealed hv
  | array label items =>
    have hplaces : ∀ (places : Nat → String) (vs : List Value), (∀ v ∈ vs, v.Sealed names) →
        EntryTwins σ names (vs.mapIdx fun i v => (.string (places i), v))
          ((vs.map (relabel σ)).mapIdx fun i v => (.string (places i), v)) := by
      intro places vs hvs
      induction vs generalizing places with
      | nil => exact .nil
      | cons v vs ih =>
        obtain ⟨hv, hvs⟩ := List.forall_mem_cons.1 hvs
        rw [List.map_cons, List.mapIdx_cons, List.mapIdx_cons]
        exact .cons (Twin.string _) ⟨rfl, hv⟩ (ih (fun i => places (i + 1)) hvs)
    rw [relabel, spreadEntries, spreadEntries, relabelAll_eq_map]
    exact hplaces toString items (allSealed_iff.1 hv)
  | _ => exact .nil

/-- The items of a twin. -/
theorem itemsOf_twins (h : Twin σ names v w) : Both (Twins σ names) (itemsOf v) (itemsOf w) := by
  obtain ⟨rfl, hv⟩ := h
  cases v with
  | string s =>
    refine Twins.mk (by rw [List.map_map]; rfl) fun v hv => ?_
    obtain ⟨c, -, rfl⟩ := List.mem_map.1 hv
    trivial
  | array label items => exact twins_of_allSealed hv
  | _ => exact rfl

end Value
end Atoll
