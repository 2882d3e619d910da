import Atoll.Proofs.Blanks
import Atoll.Proofs.Entries
import Atoll.Value.Member
import Mathlib.Tactic.IntervalCases

/-!
# Members of values under texts

A member of a value is an entry of an object, a function of a library, an item or the length of a
text or list, or a method; there is nothing else under a key.  Which keys stand for a place is
decided with a wide notion of digits, and the place is read with a narrow one.

* `Decimal.readInt?_digits` — digits of all scripts spell an integer, if all of them have a decimal
  value and they are not too many.
* `Value.place?`, `Value.isUnread` — the place that a key spells, and the keys of digits that spell
  none; `Value.index?_string` — **a key is read as the place it spells**, or it is not read.
* `Value.Has` — what a value has under a key, kind by kind.
* `Value.exists_member` — **every value but nothing has a member or gives undefined**, unless a text
  or list is asked for a key that is not read; `Value.member_unread` — it fails there.
-/

set_option autoImplicit false

namespace Atoll

/-! ## Digits of all scripts -/

namespace Decimal

open Text

variable {c : Char} {s : List Char}

theorem decimal?_lt {d : Nat} (h : decimal? c = some d) : d < 10 := by
  rw [decimal?] at h
  split at h
  · split at h
    · rename_i hdigit
      cases h
      have hrange : 48 ≤ c.toNat ∧ c.toNat ≤ 57 := Char.isDigit_iff_toNat.1 hdigit
      omega
    · cases h
  · obtain ⟨z, hz, rfl⟩ := Option.map_eq_some_iff.1 h
    have hrange := List.find?_some hz
    rw [Bool.and_eq_true, decide_eq_true_eq, decide_eq_true_eq] at hrange
    omega

/-- A digit of any script and its ASCII digit. -/
theorem plainDigit_eq {d : Nat} (h : decimal? c = some d) :
    (plainDigit c).isDigit = true ∧ (plainDigit c).toNat - 48 = d := by
  have hlt := decimal?_lt h
  rw [plainDigit, h]
  dsimp only
  interval_cases d <;> decide

theorem isDigit_plainDigit (c : Char) : (plainDigit c).isDigit = isDecimal c := by
  cases h : decimal? c with
  | some d => rw [(plainDigit_eq h).1, isDecimal, h, Option.isSome_some]
  | none =>
    rw [plainDigit, isDecimal, h, Option.isSome_none]
    dsimp only
    rw [← Bool.not_eq_true]
    intro hdigit
    have hrange : 48 ≤ c.toNat ∧ c.toNat ≤ 57 := Char.isDigit_iff_toNat.1 hdigit
    rw [decimal?, if_pos (by omega), if_pos hdigit] at h
    cases h

/-- The ASCII digits of digits are no other marks. -/
theorem plainDigit_ne {mark : Char} (h : Text.isDigit c = true)
    (hmark : Text.isDigit mark = false) : plainDigit c ≠ mark := by
  have hplain : Text.isDigit (plainDigit c) = true := by
    cases hc : decimal? c with
    | some d =>
      have hlt := decimal?_lt hc
      rw [plainDigit, hc]
      dsimp only
      interval_cases d <;> decide
    | none => rwa [plainDigit, hc]
  rintro rfl
  exact Bool.false_ne_true (hmark.symm.trans hplain)

theorem digitValues_plainDigit (h : ∀ c ∈ s, isDecimal c = true) :
    digitValues (s.map plainDigit) = s.filterMap decimal? := by
  induction s with
  | nil => rfl
  | cons c s ih =>
    obtain ⟨hc, hs⟩ := List.forall_mem_cons.1 h
    obtain ⟨d, hd⟩ := Option.isSome_iff_exists.1 hc
    rw [List.filterMap_cons, hd, ← ih hs, digitValues, List.map_cons, List.map_cons,
      (plainDigit_eq hd).2]
    rfl

theorem dropUnderscores_of_notMem {isDigit : Char → Bool} {before : Char} (hbefore : before ≠ '_')
    (h : ∀ c ∈ s, c ≠ '_') : dropUnderscores isDigit before s = some s := by
  induction s generalizing before with
  | nil => simp [dropUnderscores, hbefore]
  | cons c s ih =>
    obtain ⟨hc, hs⟩ := List.forall_mem_cons.1 h
    simp [dropUnderscores, hbefore, hc, ih hc hs]

theorem takeSign_of_head (hminus : c ≠ '-') (hplus : c ≠ '+') (s : List Char) :
    takeSign (c :: s) = (false, c :: s) := by
  simp [takeSign, hminus, hplus]

/-- **A text of digits is read as the number they spell** if all of them have a decimal value and
they are not too many. -/
theorem readInt?_digits (hne : s ≠ []) (h : ∀ c ∈ s, Text.isDigit c = true) :
    readInt? s =
      if s.all isDecimal && s.length ≤ maxDigits then
        some ((ofDigits 10 (s.filterMap decimal?) : Nat) : Int)
      else none := by
  have htrim : trim s = s := trim_eq_self fun c hc => by
    cases hblank : isBlank c with
    | false => rfl
    | true =>
      have hnot := eq_false_of_isBlank (p := Text.isDigit) (by decide +kernel) hblank
      exact absurd (h c hc) (Bool.eq_false_iff.1 hnot)
  have hunder : dropUnderscores Char.isDigit ' ' (s.map plainDigit) = some (s.map plainDigit) := by
    refine dropUnderscores_of_notMem (by decide) fun c hc => ?_
    obtain ⟨b, hb, rfl⟩ := List.mem_map.1 hc
    exact plainDigit_ne (h b hb) (by decide)
  have hall : (s.map plainDigit).all Char.isDigit = s.all isDecimal := by
    rw [List.all_map]
    exact congrArg s.all (funext isDigit_plainDigit)
  obtain ⟨c, cs, rfl⟩ := List.exists_cons_of_ne_nil hne
  have hsign : takeSign ((c :: cs).map plainDigit) = (false, (c :: cs).map plainDigit) :=
    takeSign_of_head (plainDigit_ne (h c List.mem_cons_self) (by decide))
      (plainDigit_ne (h c List.mem_cons_self) (by decide)) _
  rw [readInt?, htrim, hsign]
  dsimp only
  rw [hunder]
  show (if ((c :: cs).map plainDigit).all Char.isDigit &&
    decide (((c :: cs).map plainDigit).length ≤ maxDigits) then
      some ((ofDigits 10 (digitValues ((c :: cs).map plainDigit)) : Nat) : Int) else none) = _
  rw [hall, List.length_map]
  split
  · rename_i hread
    rw [digitValues_plainDigit (List.all_eq_true.1 (Bool.and_eq_true_iff.1 hread).1)]
  · rfl

end Decimal

/-! ## Keys -/

namespace Value

open Atoll.Expr (Fault)

variable {key : String} {v : Value}

/-- Whether a key is made of digits and still stands for no place: one of them has no decimal value,
or they are too many. -/
def isUnread (key : String) : Bool :=
  !key.isEmpty && key.toList.all Text.isDigit &&
    (!key.toList.all Text.isDecimal || decide (Text.maxDigits < key.length))

/-- The place that a key of decimal digits spells. -/
def place? (key : String) : Option Nat :=
  if !key.isEmpty && key.toList.all Text.isDecimal then
    some (Text.ofDigits 10 (key.toList.filterMap Text.decimal?))
  else none

theorem isDigit_of_isDecimal {c : Char} (h : Text.isDecimal c = true) : Text.isDigit c = true := by
  rw [Text.isDigit, h, Bool.true_or]

/-- **A key is read as the place it spells**, or it is not read. -/
theorem index?_string (key : String) :
    index? (.string key) =
      if isUnread key then .error (.trouble (unreadDigits key)) else .ok (place? key) := by
  rw [index?, isUnread, place?]
  by_cases hdigits : (!key.isEmpty && key.toList.all Text.isDigit) = true
  · obtain ⟨hempty, hall⟩ := Bool.and_eq_true_iff.1 hdigits
    have hne : key.toList ≠ [] := by
      intro hnil
      rw [String.toList_eq_nil_iff.1 hnil] at hempty
      exact absurd hempty (by decide)
    rw [if_pos hdigits, Decimal.readInt?_digits hne (List.all_eq_true.1 hall), hdigits, hempty,
      Bool.true_and, Bool.true_and, String.length_toList]
    by_cases hdecimal : key.toList.all Text.isDecimal = true
    · by_cases hlength : key.length ≤ Text.maxDigits
      · simp [hdecimal, hlength, Nat.not_lt.2 hlength]
      · simp [hdecimal, hlength, Nat.not_le.1 hlength]
    · simp [Bool.eq_false_iff.2 hdecimal]
  · have hplace : ¬(!key.isEmpty && key.toList.all Text.isDecimal) = true := by
      intro hdecimal
      obtain ⟨hempty, hall⟩ := Bool.and_eq_true_iff.1 hdecimal
      refine hdigits (Bool.and_eq_true_iff.2 ⟨hempty, List.all_eq_true.2 fun c hc => ?_⟩)
      exact isDigit_of_isDecimal (List.all_eq_true.1 hall c hc)
    rw [if_neg hdigits, Bool.eq_false_iff.2 hdigits, Bool.false_and, if_neg hplace]
    rfl

/-! ## What a value has -/

/-- Whether a value has items in places: a text or a list. -/
def hasPlaces : Value → Bool
  | .string _ => true
  | .array _ _ => true
  | _ => false

/-- A value has a member under a key.  A method that is taken out of it gets the label. -/
inductive Has (label : Label) : Value → String → Value → Prop where
  | entry {owner : Label} {before after : Entries} {key : String} {w : Value}
    (hfirst : ∀ e ∈ before, e.1 ≠ .string key) :
    Has label (.object owner (before ++ (.string key, w) :: after)) key w
  | constant {key : String} {x : Float}
    (h : (key, x) ∈ [("PI", 3.141592653589793), ("E", 2.718281828459045)]) :
    Has label (.library .math) key (.number (.float x))
  | function {l : Library} {f : Builtin} (h : f ∈ l.functions) :
    Has label (.library l) f.name (.builtin f)
  | character {s key : String} {i : Nat} {c : Char} (hplace : place? key = some i)
    (hc : s.toList[i]? = some c) : Has label (.string s) key (.string c.toString)
  | item {owner : Label} {items : List Value} {key : String} {i : Nat} {w : Value}
    (hplace : place? key = some i) (hw : items[i]? = some w) : Has label (.array owner items) key w
  | textLength (s : String) : Has label (.string s) "length" (.ofInt s.length)
  | listLength (owner : Label) (items : List Value) :
    Has label (.array owner items) "length" (.ofInt items.length)
  | textMethod {key : String} {m : StringMethod} (h : (key, m) ∈ StringMethod.table) (s : String) :
    Has label (.string s) key (.method label (.string m) (.string s))
  | listMethod {key : String} {m : ArrayMethod} (h : (key, m) ∈ ArrayMethod.table) (owner : Label)
    (items : List Value) :
    Has label (.array owner items) key (.method label (.array m) (.array owner items))
  | numberMethod {key : String} {m : NumberMethod} (h : (key, m) ∈ NumberMethod.table)
    (n : Number) :
    Has label (.number n) key (.method label (.number m) (.number n))
  | truthMethod {key : String} {m : NumberMethod} (h : (key, m) ∈ NumberMethod.table) (b : Bool) :
    Has label (.bool b) key (.method label (.number m) (.bool b))

/-- What a value has under a key, or undefined if it has nothing there. -/
def Holds (label : Label) (v : Value) (key : String) (w : Value) : Prop :=
  Has label v key w ∨ w = .undefined ∧ ∀ w', ¬Has label v key w'

section

variable {label : Label}

theorem Holds.ofOption {o : Option Value}
    (h : ∀ w, Has label v key w ↔ o = some w) : Holds label v key (o.getD .undefined) := by
  cases o with
  | some w => exact .inl ((h w).2 rfl)
  | none => exact .inr ⟨rfl, fun w hw => by cases (h w).1 hw⟩

theorem isText_iff {k : Value} : Entries.isText key k = true ↔ k = .string key := by
  cases k <;> simp [Entries.isText]

theorem has_object (owner : Label) (entries : Entries) (key : String) (w : Value) :
    Has label (.object owner entries) key w ↔ Entries.get? entries key = some w := by
  rw [Entries.get?, Option.map_eq_some_iff]
  constructor
  · intro h
    cases h with
    | entry hfirst =>
      refine ⟨(.string key, w), ?_, rfl⟩
      refine List.find?_eq_some_iff_append.2 ⟨isText_iff.2 rfl, _, _, rfl, fun e he => ?_⟩
      rw [Bool.not_eq_true']
      exact Bool.eq_false_iff.2 fun htext => hfirst e he (isText_iff.1 htext)
  · rintro ⟨⟨k, _⟩, hfind, rfl⟩
    obtain ⟨htext, before, after, rfl, hbefore⟩ := List.find?_eq_some_iff_append.1 hfind
    obtain rfl := isText_iff.1 htext
    refine .entry fun e he hkey => ?_
    have hnot : (!Entries.isText key e.1) = true := hbefore e he
    rw [isText_iff.2 hkey] at hnot
    cases hnot

/-- Every function of a library is found under its name. -/
theorem member?_name {l : Library} {f : Builtin} (h : f ∈ l.functions) :
    l.member? f.name = some (.builtin f) := by
  have hfind : l.functions.find? (·.name == f.name) = some f := by
    revert f
    cases l <;> decide
  have hmath : ∀ f ∈ Library.math.functions, f.name ≠ "PI" ∧ f.name ≠ "E" := by decide
  unfold Library.member?
  split
  · rename_i hname
    exact absurd hname (hmath f h).1
  · rename_i hname
    exact absurd hname (hmath f h).2
  · rw [hfind]
    rfl

theorem has_library (l : Library) (key : String) (w : Value) :
    Has label (.library l) key w ↔ l.member? key = some w := by
  constructor
  · intro h
    cases h with
    | constant h =>
      rcases h with _ | ⟨_, _ | ⟨_, ⟨⟩⟩⟩ <;> rfl
    | function h => exact member?_name h
  · intro h
    unfold Library.member? at h
    split at h
    · cases h
      exact .constant (by simp)
    · cases h
      exact .constant (by simp)
    · obtain ⟨f, hf, rfl⟩ := Option.map_eq_some_iff.1 h
      have hname := List.find?_some hf
      obtain rfl := eq_of_beq hname
      exact .function (List.mem_of_find?_eq_some hf)

/-- The member of a text or list: an item if the key spells a place, and else the length or a
method. -/
def placed? (label : Label) (v : Value) (item? : Nat → Option Value) (length : Nat)
    (method? : String → Option Method) (key : String) : Option Value :=
  (place? key).elim
    (if key = "length" then some (.ofInt length) else (method? key).map (.method label · v)) item?

theorem placed?_eq_some_iff {α : Type} {table : List (String × α)} {wrap : α → Method}
    (hkeys : (table.map Prod.fst).Nodup) (hnames : ∀ p ∈ table, place? p.1 = none ∧ p.1 ≠ "length")
    {item? : Nat → Option Value} {length : Nat} {w : Value} :
    placed? label v item? length (fun k => (table.lookup k).map wrap) key = some w ↔
      (∃ i, place? key = some i ∧ item? i = some w) ∨ (key = "length" ∧ w = .ofInt length) ∨
        ∃ m, (key, m) ∈ table ∧ w = .method label (wrap m) v := by
  have hlength : place? "length" = none := by decide
  rw [placed?]
  cases hplace : place? key with
  | some i =>
    rw [Option.elim_some]
    constructor
    · exact fun hw => .inl ⟨i, rfl, hw⟩
    · rintro (⟨_, ⟨⟩, hw⟩ | ⟨rfl, -⟩ | ⟨m, hm, -⟩)
      · exact hw
      · cases hlength.symm.trans hplace
      · cases (hnames _ hm).1.symm.trans hplace
  | none =>
    rw [Option.elim_none]
    by_cases hkey : key = "length"
    · rw [if_pos hkey]
      constructor
      · rintro ⟨⟩
        exact .inr (.inl ⟨hkey, rfl⟩)
      · rintro (⟨_, ⟨⟩, -⟩ | ⟨-, rfl⟩ | ⟨m, hm, -⟩)
        · rfl
        · exact absurd hkey (hnames _ hm).2
    · rw [if_neg hkey, Option.map_map, Option.map_eq_some_iff]
      constructor
      · rintro ⟨m, hm, rfl⟩
        exact .inr (.inr ⟨m, (lookup_eq_some_iff_mem hkeys).1 hm, rfl⟩)
      · rintro (⟨_, ⟨⟩, -⟩ | ⟨hlength, -⟩ | ⟨m, hm, rfl⟩)
        · exact absurd hlength hkey
        · exact ⟨m, (lookup_eq_some_iff_mem hkeys).2 hm, rfl⟩

theorem has_string (s key : String) (w : Value) :
    Has label (.string s) key w ↔
      placed? label (.string s) (fun i => s.toList[i]?.map fun c => .string c.toString) s.length
        (fun k => (StringMethod.table.lookup k).map .string) key = some w := by
  rw [placed?_eq_some_iff (by decide) (by decide)]
  constructor
  · intro h
    cases h with
    | character hplace hc => exact .inl ⟨_, hplace, by rw [hc, Option.map_some]⟩
    | textLength => exact .inr (.inl ⟨rfl, rfl⟩)
    | textMethod h => exact .inr (.inr ⟨_, h, rfl⟩)
  · rintro (⟨i, hplace, hw⟩ | ⟨rfl, rfl⟩ | ⟨m, hm, rfl⟩)
    · obtain ⟨c, hc, rfl⟩ := Option.map_eq_some_iff.1 hw
      exact .character hplace hc
    · exact .textLength s
    · exact .textMethod hm s

theorem has_array (owner : Label) (items : List Value) (key : String) (w : Value) :
    Has label (.array owner items) key w ↔
      placed? label (.array owner items) (fun i => items[i]?) items.length
        (fun k => (ArrayMethod.table.lookup k).map .array) key = some w := by
  rw [placed?_eq_some_iff (by decide) (by decide)]
  constructor
  · intro h
    cases h with
    | item hplace hw => exact .inl ⟨_, hplace, hw⟩
    | listLength => exact .inr (.inl ⟨rfl, rfl⟩)
    | listMethod h => exact .inr (.inr ⟨_, h, rfl⟩)
  · rintro (⟨i, hplace, hw⟩ | ⟨rfl, rfl⟩ | ⟨m, hm, rfl⟩)
    · exact .item hplace hw
    · exact .listLength owner items
    · exact .listMethod hm owner items

/-- Numbers and truth values have methods only. -/
theorem holds_method (h : ∀ w, Has label v key w ↔
      ∃ m, (key, m) ∈ NumberMethod.table ∧ w = .method label (.number m) v) :
    Holds label v key
      ((NumberMethod.table.lookup key).elim .undefined fun m => .method label (.number m) v) := by
  have hoption (o : Option NumberMethod) :
      (o.elim .undefined fun m => .method label (.number m) v) =
        (o.map fun m => Value.method label (.number m) v).getD .undefined := by
    cases o <;> rfl
  rw [hoption]
  refine .ofOption fun w => ?_
  rw [h, Option.map_eq_some_iff]
  have hkeys : (NumberMethod.table.map Prod.fst).Nodup := by decide
  simp only [lookup_eq_some_iff_mem hkeys, eq_comm]

theorem named_eq (v : Value) (length : Nat) (method? : String → Option Method) (key : String) :
    named label v length method? key =
      (if key = "length" then some (Value.ofInt length)
        else (method? key).map (.method label · v)).getD .undefined := by
  rw [named]
  by_cases hkey : key = "length"
  · simp [hkey]
  · rw [if_neg hkey, if_neg (by simpa using hkey)]
    cases method? key <;> rfl

theorem member_text (h : isUnread key = false) (s : String) :
    ∃ w, member label (.string s) (.string key) = .ok w ∧ Holds label (.string s) key w := by
  refine ⟨_, ?_, .ofOption (has_string s key)⟩
  rw [member, index?_string, h, placed?]
  cases place? key with
  | some i =>
    show Except.ok ((s.toList[i]?).elim _ _) = Except.ok (Option.getD ((s.toList[i]?).map _) _)
    cases s.toList[i]? <;> rfl
  | none => exact congrArg Except.ok (named_eq _ _ _ key)

theorem member_list (h : isUnread key = false) (owner : Label) (items : List Value) :
    ∃ w, member label (.array owner items) (.string key) = .ok w ∧
      Holds label (.array owner items) key w := by
  refine ⟨_, ?_, .ofOption (has_array owner items key)⟩
  rw [member, index?_string, h, placed?]
  cases place? key with
  | some i => rfl
  | none => exact congrArg Except.ok (named_eq _ _ _ key)

/-- Texts and lists fail at a key that is not read. -/
theorem member_unread (hplaces : v.hasPlaces = true) (hunread : isUnread key = true) :
    member label v (.string key) = .error (.trouble (unreadDigits key)) := by
  cases v with
  | string s =>
    rw [member, index?_string, hunread]
    rfl
  | array owner items =>
    rw [member, index?_string, hunread]
    rfl
  | _ => cases hplaces

/-- **The member of a value under a text.**  A value that is not nothing has one, or gives
undefined, at every key but those. -/
theorem exists_member (h : v.isNothing = false) (hread : (v.hasPlaces && isUnread key) = false) :
    ∃ w, member label v (.string key) = .ok w ∧ Holds label v key w := by
  have hnothing {v : Value} (hmember : member label v (.string key) = .ok .undefined)
      (hhas : ∀ w, ¬Has label v key w) :
      ∃ w, member label v (.string key) = .ok w ∧ Holds label v key w :=
    ⟨.undefined, hmember, .inr ⟨rfl, hhas⟩⟩
  cases v with
  | undefined => cases h
  | null => cases h
  | bool b =>
    refine ⟨_, rfl, holds_method fun w => ⟨fun hw => ?_, ?_⟩⟩
    · cases hw with
      | truthMethod hm => exact ⟨_, hm, rfl⟩
    · rintro ⟨m, hm, rfl⟩
      exact .truthMethod hm b
  | number n =>
    refine ⟨_, rfl, holds_method fun w => ⟨fun hw => ?_, ?_⟩⟩
    · cases hw with
      | numberMethod hm => exact ⟨_, hm, rfl⟩
    · rintro ⟨m, hm, rfl⟩
      exact .numberMethod hm n
  | string s => exact member_text hread s
  | array owner items => exact member_list hread owner items
  | object owner entries => exact ⟨_, rfl, .ofOption (has_object owner entries key)⟩
  | library l => exact ⟨_, rfl, .ofOption (has_library l key)⟩
  | builtin f => exact hnothing rfl fun w hw => by cases hw
  | method owner m receiver => exact hnothing rfl fun w hw => by cases hw
  | closure owner params body locals home => exact hnothing rfl fun w hw => by cases hw
  | foreign owner kind => exact hnothing rfl fun w hw => by cases hw

end

end Value
end Atoll
