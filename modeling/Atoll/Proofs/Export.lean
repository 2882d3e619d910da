import Atoll.Proofs.Doubles
import Atoll.Proofs.Entries
import Atoll.Value.Convert

/-!
# Exported values are clean data

A value that leaves the world of expressions becomes plain data: members of objects that are
undefined or functions are left out, everything else that data cannot hold becomes null.  Keys
become texts, which an integer with too many digits has not, and which two keys may have in common.

* `Datum.isClean` — data with finite numbers in the range of doubles and no key twice.
* `Value.Exports` — **what becomes of a value**, kind by kind: lists keep their length, and objects
  the order of their keys.
* `Value.HoldsLongKey` — the values that have no data; `hasLongKey_iff`.
* `Value.exports_toDatum`, `Value.Exports.isClean` — what a value is exported as is what the
  relation says, and what the relation says is clean.
* `Value.toDatum_ofDatum` — clean data is exported as it is.
* `Value.exported_clean` — the result; `Value.exported_odd` is about odd keys.
-/

set_option autoImplicit false

namespace Atoll

/-! ## Clean data -/

namespace Datum

mutual

/-- Whether data holds no moment, no number that is not finite, no integer beyond the doubles, and
no key twice in an object. -/
def isClean : Datum → Bool
  | .null => true
  | .bool _ => true
  | .int n => decide (n.natAbs < Double.limit)
  | .float x => !Double.isNaN x && !Double.isInfinite x
  | .string _ => true
  | .moment _ => false
  | .array items => allClean items
  | .object entries => decide (entries.map Prod.fst).Nodup && entriesClean entries

/-- `isClean` on lists. -/
def allClean : List Datum → Bool
  | [] => true
  | d :: ds => isClean d && allClean ds

/-- `isClean` on entries. -/
def entriesClean : List (String × Datum) → Bool
  | [] => true
  | (_, d) :: ds => isClean d && entriesClean ds

end

theorem entriesClean_iff (es : List (String × Datum)) :
    entriesClean es = true ↔ ∀ e ∈ es, e.2.isClean = true := by
  induction es with
  | nil => simp [entriesClean]
  | cons e es ih => simp [entriesClean, ih]

theorem isClean_int_iff (n : Int) : isClean (.int n) = true ↔ Number.isFinite (.int n) = true := by
  rw [isClean, decide_eq_true_eq, Number.isFinite_int_iff]

theorem isClean_float (x : Float) : isClean (.float x) = Number.isFinite (.float x) :=
  rfl

end Datum

namespace Value

/-! ## What becomes of a value -/

/-- Whether a member of an object is left out. -/
def isLeftOut (v : Value) : Prop :=
  v = .undefined ∨ v.isFunction = true

mutual

/-- The data that stands for a value. -/
inductive Exports : Value → Datum → Prop where
  | null : Exports .null .null
  | bool (b : Bool) : Exports (.bool b) (.bool b)
  | string (s : String) : Exports (.string s) (.string s)
  | int {n : Int} (h : n.natAbs < Double.limit) : Exports (.number (.int n)) (.int n)
  | largeInt {n : Int} (h : Double.limit ≤ n.natAbs) : Exports (.number (.int n)) .null
  | float {x : Float} (hnan : Double.isNaN x = false) (hinfinite : Double.isInfinite x = false) :
    Exports (.number (.float x)) (.float x)
  | notFinite {x : Float} (h : Double.isNaN x = true ∨ Double.isInfinite x = true) :
    Exports (.number (.float x)) .null
  | leftOut {v : Value} (h : v.isLeftOut) : Exports v .null
  | library (l : Library) : Exports (.library l) .null
  | foreign (label : Label) (kind : String) : Exports (.foreign label kind) .null
  | array {label : Label} {items : List Value} {ds : List Datum} (h : ExportsAll items ds) :
    Exports (.array label items) (.array ds)
  | object {label : Label} {entries : List (Value × Value)} {ds : List (String × Datum)}
    (h : ExportsEntries entries ds) : Exports (.object label entries) (.object ds)

/-- Items stand for items, one by one. -/
inductive ExportsAll : List Value → List Datum → Prop where
  | nil : ExportsAll [] []
  | cons {v : Value} {d : Datum} {vs : List Value} {ds : List Datum} (hv : Exports v d)
    (hvs : ExportsAll vs ds) : ExportsAll (v :: vs) (d :: ds)

/-- Members stay under the texts of their keys and in their order, but for those that are left out.
Of members under one text, the first place and the last value count. -/
inductive ExportsEntries : List (Value × Value) → List (String × Datum) → Prop where
  | nil : ExportsEntries [] []
  | keep {k v : Value} {d : Datum} {es : List (Value × Value)} {ds : List (String × Datum)}
    (hkeep : ¬v.isLeftOut) (hv : Exports v d) (hes : ExportsEntries es ds)
    (honly : k.keyText ∉ ds.map Prod.fst) : ExportsEntries ((k, v) :: es) ((k.keyText, d) :: ds)
  | merge {k v : Value} {d : Datum} {es : List (Value × Value)} {ds : List (String × Datum)}
    (hkeep : ¬v.isLeftOut) (hes : ExportsEntries es ds) (hlater : (k.keyText, d) ∈ ds) :
    ExportsEntries ((k, v) :: es) ((k.keyText, d) :: ds.filter (·.1 != k.keyText))
  | skip {k v : Value} {es : List (Value × Value)} {ds : List (String × Datum)}
    (hskip : v.isLeftOut) (hes : ExportsEntries es ds) : ExportsEntries ((k, v) :: es) ds

end

/-- Somewhere in a value there is an integer with too many digits that is the key of a member which
is not left out. -/
inductive HoldsLongKey : Value → Prop where
  | item {label : Label} {items : List Value} {v : Value} (hmem : v ∈ items)
    (hv : HoldsLongKey v) : HoldsLongKey (.array label items)
  | key {label : Label} {entries : List (Value × Value)} {n : Int} {v : Value}
    (hmem : (.number (.int n), v) ∈ entries) (hkeep : ¬v.isLeftOut)
    (hlong : Nat.pow 10 Text.maxDigits ≤ n.natAbs) : HoldsLongKey (.object label entries)
  | member {label : Label} {entries : List (Value × Value)} {k v : Value}
    (hmem : (k, v) ∈ entries) (hv : HoldsLongKey v) : HoldsLongKey (.object label entries)

theorem isExported_iff (v : Value) : v.isExported = true ↔ ¬v.isLeftOut := by
  cases v <;> simp [isExported, isLeftOut, category, isFunction]

theorem ExportsEntries.nodup_keys {es : List (Value × Value)} {ds : List (String × Datum)}
    (h : ExportsEntries es ds) : (ds.map Prod.fst).Nodup := by
  induction es generalizing ds with
  | nil =>
    cases h
    exact List.nodup_nil
  | cons e es ih =>
    cases h with
    | keep _ _ hes honly => exact List.nodup_cons.2 ⟨honly, ih hes⟩
    | merge _ hes _ =>
      refine List.nodup_cons.2 ⟨?_, (ih hes).sublist (List.filter_sublist.map _)⟩
      simp
    | skip _ hes => exact ih hes

mutual

theorem exports_toDatum : (v : Value) → Exports v v.toDatum
  | .undefined => .leftOut (.inl rfl)
  | .null => .null
  | .bool b => .bool b
  | .number (.int n) => by
    rw [toDatum]
    split
    · rename_i hfinite
      exact .int ((Number.isFinite_int_iff n).1 hfinite)
    · rename_i hfinite
      exact .largeInt (Nat.not_lt.1 fun hlt => hfinite ((Number.isFinite_int_iff n).2 hlt))
  | .number (.float x) => by
    rw [toDatum]
    split
    · rename_i hfinite
      rw [Number.isFinite, Number.toFloat, Bool.and_eq_true, Bool.not_eq_true', Bool.not_eq_true']
        at hfinite
      exact .float hfinite.1 hfinite.2
    · rename_i hfinite
      rw [Number.isFinite, Number.toFloat, Bool.and_eq_true, not_and_or, Bool.not_eq_true',
        Bool.not_eq_true', Bool.not_eq_false, Bool.not_eq_false] at hfinite
      exact .notFinite hfinite
  | .string s => .string s
  | .array _ items => .array (exportsAll_toData items)
  | .object _ entries => .object (exportsEntries_toDataEntries entries)
  | .builtin _ => .leftOut (.inr rfl)
  | .library l => .library l
  | .method _ _ _ => .leftOut (.inr rfl)
  | .closure _ _ _ _ _ => .leftOut (.inr rfl)
  | .foreign label kind => .foreign label kind

theorem exportsAll_toData : (vs : List Value) → ExportsAll vs (toData vs)
  | [] => .nil
  | v :: vs => .cons (exports_toDatum v) (exportsAll_toData vs)

theorem exportsEntries_toDataEntries : (es : List (Value × Value)) →
    ExportsEntries es (setEntries [] (toDataEntries es))
  | [] => .nil
  | (k, v) :: es => by
    have hes := exportsEntries_toDataEntries es
    rw [toDataEntries]
    split
    · rename_i hkeep
      rw [setEntries_cons]
      -- whether a later member has the same text for its key
      cases hlater : (setEntries [] (toDataEntries es)).lookup k.keyText with
      | some d =>
        exact .merge ((isExported_iff v).1 hkeep) hes
          ((lookup_eq_some_iff_mem hes.nodup_keys).1 hlater)
      | none =>
        have honly := List.lookup_eq_none_iff.1 hlater
        rw [List.filter_eq_self.2 fun e he => bne_comm.trans (honly e he)]
        refine .keep ((isExported_iff v).1 hkeep) (exports_toDatum v) hes fun hmem => ?_
        obtain ⟨e, he, hkey⟩ := List.mem_map.1 hmem
        exact bne_iff_ne.1 (honly e he) hkey.symm
    · rename_i hskip
      exact .skip (not_not.1 fun hkeep => hskip ((isExported_iff v).2 hkeep)) hes

end

/-! ## Keys that cannot be written -/

theorem isLongKey_iff (k : Value) : k.isLongKey = true ↔
    ∃ n : Int, k = .number (.int n) ∧ Nat.pow 10 Text.maxDigits ≤ n.natAbs := by
  cases k with
  | number n =>
    cases n with
    | int n =>
      rw [isLongKey, Decimal.intText?]
      split <;> rename_i hlong
      · refine iff_of_false Bool.false_ne_true ?_
        rintro ⟨m, hm, hlarge⟩
        cases hm
        exact absurd hlong (Nat.not_lt.2 hlarge)
      · exact iff_of_true rfl ⟨n, rfl, Nat.not_lt.1 hlong⟩
    | float x => simp [isLongKey]
  | _ => simp [isLongKey]

mutual

theorem hasLongKey_iff : (v : Value) → (v.hasLongKey = true ↔ v.HoldsLongKey)
  | .undefined | .null | .bool _ | .number _ | .string _ | .builtin _ | .library _ | .method _ _ _
  | .closure _ _ _ _ _ | .foreign _ _ => iff_of_false Bool.false_ne_true (by rintro ⟨⟩)
  | .array label items => by
    rw [hasLongKey, anyLongKey_iff items]
    constructor
    · rintro ⟨v, hmem, hv⟩
      exact .item hmem hv
    · rintro ⟨hmem, hv⟩
      exact ⟨_, hmem, hv⟩
  | .object label entries => by
    rw [hasLongKey, longKeyAmong_iff entries]
    constructor
    · rintro ⟨⟨k, v⟩, hmem, hkeep, hkey | hv⟩
      · obtain ⟨n, rfl, hlong⟩ := (isLongKey_iff k).1 hkey
        exact .key hmem hkeep hlong
      · exact .member hmem hv
    · rintro (_ | ⟨hmem, hkeep, hlong⟩ | ⟨hmem, hv⟩)
      · exact ⟨_, hmem, hkeep, .inl ((isLongKey_iff _).2 ⟨_, rfl, hlong⟩)⟩
      · refine ⟨_, hmem, ?_, .inr hv⟩
        rintro (rfl | hfunction)
        · cases hv
        · cases hv <;> cases hfunction

theorem anyLongKey_iff : (vs : List Value) →
    (anyLongKey vs = true ↔ ∃ v ∈ vs, v.HoldsLongKey)
  | [] => by simp [anyLongKey]
  | v :: vs => by simp [anyLongKey, hasLongKey_iff v, anyLongKey_iff vs]

theorem longKeyAmong_iff : (es : List (Value × Value)) →
    (longKeyAmong es = true ↔
      ∃ e ∈ es, ¬e.2.isLeftOut ∧ (e.1.isLongKey = true ∨ e.2.HoldsLongKey))
  | [] => by simp [longKeyAmong]
  | (k, v) :: es => by
    simp [longKeyAmong, isExported_iff, hasLongKey_iff v, longKeyAmong_iff es]

end

/-! ## Data of a value is clean -/

mutual

theorem Exports.isClean {v : Value} {d : Datum} : Exports v d → d.isClean = true
  | .null | .bool _ | .string _ | .largeInt _ | .notFinite _ | .leftOut _ | .library _
  | .foreign _ _ => rfl
  | .int h => by rwa [Datum.isClean, decide_eq_true_eq]
  | .float hnan hinfinite => by rw [Datum.isClean, hnan, hinfinite]; rfl
  | .array h => h.allClean
  | .object h => by
    rw [Datum.isClean, decide_eq_true h.nodup_keys, (Datum.entriesClean_iff _).2 h.clean]
    rfl

theorem ExportsAll.allClean {vs : List Value} {ds : List Datum} :
    ExportsAll vs ds → Datum.allClean ds = true
  | .nil => rfl
  | .cons hv hvs => by rw [Datum.allClean, hv.isClean, hvs.allClean]; rfl

theorem ExportsEntries.clean {es : List (Value × Value)} {ds : List (String × Datum)} :
    ExportsEntries es ds → ∀ e ∈ ds, e.2.isClean = true
  | .nil => List.forall_mem_nil _
  | .keep _ hv hes _ => List.forall_mem_cons.2 ⟨hv.isClean, hes.clean⟩
  | .merge _ hes hlater => List.forall_mem_cons.2
      ⟨hes.clean _ hlater, fun e he => hes.clean e (List.mem_filter.1 he).1⟩
  | .skip _ hes => hes.clean

end

/-! ## Clean data is exported as it is -/

theorem isExported_ofDatum (label : Label) (d : Datum) : (ofDatum label d).isExported = true := by
  cases d <;> rfl

mutual

theorem hasLongKey_ofDatum : (label : Label) → (d : Datum) →
    (ofDatum label d).hasLongKey = false
  | _, .null | _, .bool _ | _, .int _ | _, .float _ | _, .string _ | _, .moment _ => rfl
  | label, .array items => anyLongKey_ofData label 0 items
  | label, .object entries => longKeyAmong_ofDataEntries label 0 entries

theorem anyLongKey_ofData : (label : Label) → (i : Nat) → (ds : List Datum) →
    anyLongKey (ofData label i ds) = false
  | _, _, [] => rfl
  | label, i, d :: ds => by
    rw [ofData, anyLongKey, hasLongKey_ofDatum _ d, anyLongKey_ofData label (i + 1) ds,
      Bool.or_self]

theorem longKeyAmong_ofDataEntries : (label : Label) → (i : Nat) → (es : List (String × Datum)) →
    longKeyAmong (ofDataEntries label i es) = false
  | _, _, [] => rfl
  | label, i, (k, d) :: es => by
    rw [ofDataEntries, longKeyAmong, hasLongKey_ofDatum _ d,
      longKeyAmong_ofDataEntries label (i + 1) es]
    simp [isLongKey]

end

mutual

theorem toDatum_ofDatum : (label : Label) → (d : Datum) → d.isClean = true →
    (ofDatum label d).toDatum = d
  | _, .null => fun _ => rfl
  | _, .bool _ => fun _ => rfl
  | _, .int n => fun h => by
    rw [ofDatum, toDatum, if_pos ((Datum.isClean_int_iff n).1 h)]
  | _, .float x => fun h => by
    rw [Datum.isClean_float] at h
    rw [ofDatum, toDatum, if_pos h]
  | _, .string _ => fun _ => rfl
  | _, .moment _ => fun h => absurd h Bool.false_ne_true
  | label, .array items => fun h => by
    rw [Datum.isClean] at h
    rw [ofDatum, toDatum, toData_ofData label 0 items h]
  | label, .object entries => fun h => by
    rw [Datum.isClean, Bool.and_eq_true, decide_eq_true_eq] at h
    rw [ofDatum, toDatum, toDataEntries_ofDataEntries label 0 entries h.2,
      setEntries_of_nodup h.1, List.nil_append]

theorem toData_ofData : (label : Label) → (i : Nat) → (ds : List Datum) →
    Datum.allClean ds = true → toData (ofData label i ds) = ds
  | _, _, [] => fun _ => rfl
  | label, i, d :: ds => fun h => by
    rw [Datum.allClean, Bool.and_eq_true] at h
    rw [ofData, toData, toDatum_ofDatum _ d h.1, toData_ofData label (i + 1) ds h.2]

theorem toDataEntries_ofDataEntries : (label : Label) → (i : Nat) → (es : List (String × Datum)) →
    Datum.entriesClean es = true → toDataEntries (ofDataEntries label i es) = es
  | _, _, [] => fun _ => rfl
  | label, i, (k, d) :: es => fun h => by
    rw [Datum.entriesClean, Bool.and_eq_true] at h
    rw [ofDataEntries, toDataEntries, if_pos (isExported_ofDatum _ d), toDatum_ofDatum _ d h.1,
      toDataEntries_ofDataEntries label (i + 1) es h.2]
    rfl

end

/-- **Values are exported as clean data.**  A value has no data if an integer with too many digits
is the key of one of its exported members, and data otherwise: numbers, texts and truth values as
they are, null for all that data cannot hold, lists with all of their items, and objects with their
members in order, but for those that are undefined or functions; members whose keys have the same
text become one.  There is no number in it that is not finite, and no integer beyond the doubles.
Made into a value again, whatever its identity, it is exported as it is. -/
theorem exported_clean (v : Value) :
    (v.HoldsLongKey ∧ v.exported = .error (.trouble .longInteger)) ∨
      (¬v.HoldsLongKey ∧ ∃ d, v.exported = .ok d ∧ Exports v d ∧ d.isClean = true ∧
        ∀ label, (ofDatum label d).exported = .ok d) := by
  have hexported {w : Value} (h : w.hasLongKey = false) : w.exported = .ok w.toDatum := by
    rw [exported, h]
    rfl
  cases hlong : v.hasLongKey with
  | true => exact .inl ⟨(hasLongKey_iff v).1 hlong, by rw [exported, hlong]; rfl⟩
  | false =>
    have hshort : ¬v.HoldsLongKey := fun hholds => by simp [(hasLongKey_iff v).2 hholds] at hlong
    refine .inr ⟨hshort, v.toDatum, hexported hlong, exports_toDatum v, (exports_toDatum v).isClean,
      fun label => ?_⟩
    rw [hexported (hasLongKey_ofDatum label _), toDatum_ofDatum label _ (exports_toDatum v).isClean]

/-- An object with a number and its text as keys. -/
def alike : Value :=
  .object [] [(.ofInt 1, .string "a"), (.string "1", .string "b")]

/-- An object with the first integer that has too many digits as its key. -/
def overlong : Value :=
  .object [] [(.ofInt (.ofNat (.pow 10 Text.maxDigits)), .null)]

/-- Different keys of an object may be one key of its data, and some of them cannot be written. -/
theorem exported_odd :
    alike.exported = .ok (.object [("1", .string "b")]) ∧
      overlong.exported = .error (.trouble .longInteger) := by
  have hshort : alike.hasLongKey = false := by decide +kernel
  have hlong : overlong.hasLongKey = true := by decide +kernel
  rw [exported, exported, hshort, hlong]
  exact ⟨rfl, rfl⟩

end Value
end Atoll
