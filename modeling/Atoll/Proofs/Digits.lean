import Atoll.Decimal.Reader
import Atoll.Text.Quoted
import Mathlib.Tactic.IntervalCases

/-!
# Digits mean the number they were made from

Numbers are written in decimal, and in hexadecimal inside escapes.

* `takeWhile_append_stop` — a scanner takes a whole piece and stops behind it.
* `ofDigits_decimal` — the decimal digits of a number spell it.
* `ofDigits_hex` — so do its hexadecimal digits.
* `mapM_hexPadded` — and these may be filled up with zeros.
-/

set_option autoImplicit false

namespace Atoll
namespace Text

variable {d : Nat}

/-- A scanner that takes a piece and stops at what comes behind it. -/
theorem takeWhile_append_stop {f : Char → Bool} {piece more : List Char}
    (hpiece : ∀ c ∈ piece, f c = true) (hmore : ∀ c ∈ more.head?, f c = false) :
    (piece ++ more).takeWhile f = piece := by
  rw [List.takeWhile_append_of_pos hpiece]
  cases more with
  | nil => simp
  | cons c cs => simp [hmore c rfl]

theorem drop_takeWhile_length (f : Char → Bool) (s : List Char) :
    s.drop (s.takeWhile f).length = s.dropWhile f := by
  calc s.drop (s.takeWhile f).length
      = (s.takeWhile f ++ s.dropWhile f).drop (s.takeWhile f).length := by
        rw [List.takeWhile_append_dropWhile]
    _ = s.dropWhile f := List.drop_left

theorem ofDigits_concat (base d : Nat) (ds : List Nat) :
    ofDigits base (ds ++ [d]) = ofDigits base ds * base + d := by
  rw [ofDigits, List.foldl_append]
  rfl

/-! ## Decimal digits -/

theorem ofDigits_digitValues (s : List Char) :
    ofDigits 10 (Decimal.digitValues s) = Nat.ofDigitChars 10 s 0 := by
  rw [ofDigits, Decimal.digitValues, List.foldl_map, Nat.ofDigitChars_eq_foldl]
  congr 1
  funext n c
  rw [Nat.mul_comm]
  rfl

/-- **Decimal digits spell their number.** -/
theorem ofDigits_decimal (n : Nat) : ofDigits 10 (Decimal.digitValues (Nat.toDigits 10 n)) = n := by
  rw [ofDigits_digitValues, Nat.ofDigitChars_ten_toDigits]

/-- Only zero is written with a zero in front. -/
theorem head?_toDigits {n : Nat} (h : 0 < n) : (Nat.toDigits 10 n).head? ≠ some '0' := by
  induction n using Nat.strong_induction_on with
  | _ n ih =>
    rw [Nat.toDigits_eq_if (by decide)]
    split
    · rename_i hn
      interval_cases n <;> decide
    · rename_i hn
      have hfirst := ih (n / 10) (by omega) (by omega)
      obtain ⟨c, cs, hdigits⟩ := List.exists_cons_of_ne_nil (Nat.toDigits_ne_nil (n := n / 10))
      rw [hdigits] at hfirst ⊢
      exact hfirst

/-! ## Hexadecimal digits -/

theorem hexValue?_digitChar (h : d < 16) : hexValue? d.digitChar = some d := by
  interval_cases d <;> decide

theorem isHex_digitChar (h : d < 16) : isHex d.digitChar = true := by
  rw [isHex, hexValue?_digitChar h]
  rfl

theorem isHex_of_mem_toDigits (n : Nat) : ∀ c ∈ Nat.toDigits 16 n, isHex c = true := by
  induction n using Nat.strong_induction_on with
  | _ n ih =>
    intro c hc
    rw [Nat.toDigits_eq_if (by decide)] at hc
    split at hc
    · rename_i hn
      rw [List.mem_singleton.mp hc]
      exact isHex_digitChar hn
    · rename_i hn
      rcases List.mem_append.mp hc with hc | hc
      · exact ih (n / 16) (by omega) c hc
      · rw [List.mem_singleton.mp hc]
        exact isHex_digitChar (by omega)

/-- **Hexadecimal digits spell their number.** -/
theorem ofDigits_hex (n : Nat) : ofDigits 16 ((Nat.toDigits 16 n).filterMap hexValue?) = n := by
  induction n using Nat.strong_induction_on with
  | _ n ih =>
    rw [Nat.toDigits_eq_if (by decide)]
    split
    · rename_i hn
      simp [hexValue?_digitChar hn, ofDigits]
    · rename_i hn
      have hlast : n % 16 < 16 := by omega
      have hinit := ih (n / 16) (by omega)
      rw [List.filterMap_append, List.filterMap_cons_some (hexValue?_digitChar hlast),
        List.filterMap_nil, ofDigits_concat, hinit]
      omega

/-- Zeros in front do not count. -/
theorem ofDigits_replicate_zero (base k : Nat) (ds : List Nat) :
    ofDigits base (List.replicate k 0 ++ ds) = ofDigits base ds := by
  induction k with
  | zero => rfl
  | succ k ih =>
    rw [List.replicate_succ, List.cons_append, ← ih]
    simp [ofDigits]

theorem hexValue?_lt {c : Char} (h : hexValue? c = some d) : d < 16 := by
  have hbounds : ∀ a b : Char, (decide (a ≤ c) && decide (c ≤ b)) = true →
      a.toNat ≤ c.toNat ∧ c.toNat ≤ b.toNat := by
    intro a b hab
    rwa [Bool.and_eq_true, decide_eq_true_eq, decide_eq_true_eq] at hab
  rw [hexValue?] at h
  split at h
  · rename_i hdigit
    have hrange : 48 ≤ c.toNat ∧ c.toNat ≤ 57 := hbounds '0' '9' hdigit
    cases h
    omega
  split at h
  · rename_i hlower
    have hrange : 97 ≤ c.toNat ∧ c.toNat ≤ 102 := hbounds 'a' 'f' hlower
    cases h
    omega
  split at h
  · rename_i hupper
    have hrange : 65 ≤ c.toNat ∧ c.toNat ≤ 70 := hbounds 'A' 'F' hupper
    cases h
    omega
  · cases h

/-- Few digits spell a small number. -/
theorem ofDigits_lt {base : Nat} {ds : List Nat} (h : ∀ d ∈ ds, d < base) :
    ofDigits base ds < base ^ ds.length := by
  have hfold : ∀ (ds : List Nat) (acc k : Nat), (∀ d ∈ ds, d < base) → acc < base ^ k →
      ds.foldl (fun n d => n * base + d) acc < base ^ (k + ds.length) := by
    intro ds
    induction ds with
    | nil => exact fun acc k _ hacc => hacc
    | cons d ds ih =>
      intro acc k hds hacc
      rw [List.forall_mem_cons] at hds
      have hnext : acc * base + d < base ^ (k + 1) := by
        calc acc * base + d < acc * base + base := Nat.add_lt_add_left hds.1 _
          _ = (acc + 1) * base := by rw [Nat.add_mul, Nat.one_mul]
          _ ≤ base ^ k * base := Nat.mul_le_mul_right base hacc
          _ = base ^ (k + 1) := (Nat.pow_succ ..).symm
      have hrest := ih _ (k + 1) hds.2 hnext
      rwa [Nat.add_right_comm, Nat.add_assoc] at hrest
  simpa [ofDigits] using hfold ds 0 0 h (by simp)

theorem mapM_hexValue? {s : List Char} (h : ∀ c ∈ s, isHex c = true) :
    s.mapM hexValue? = some (s.filterMap hexValue?) := by
  induction s with
  | nil => rfl
  | cons c s ih =>
    rw [List.forall_mem_cons] at h
    obtain ⟨v, hv⟩ := Option.isSome_iff_exists.1 h.1
    rw [List.mapM_cons, ih h.2, hv, List.filterMap_cons_some hv]
    rfl

theorem length_hexPadded {width n : Nat} (hpos : 0 < width) (h : n < 16 ^ width) :
    (hexPadded width n).length = width := by
  have hlength := (Nat.length_toDigits_le_iff (by decide) hpos).2 h
  simp only [hexPadded, List.length_append, List.length_replicate]
  omega

theorem isHex_of_mem_hexPadded (width n : Nat) : ∀ c ∈ hexPadded width n, isHex c = true := by
  simp only [hexPadded, List.forall_mem_append]
  refine ⟨fun c hc => ?_, isHex_of_mem_toDigits n⟩
  rw [List.eq_of_mem_replicate hc]
  decide

/-- **A number that is filled up with zeros** is still that number. -/
theorem mapM_hexPadded (width n : Nat) :
    ∃ ds, (hexPadded width n).mapM hexValue? = some ds ∧ ofDigits 16 ds = n := by
  refine ⟨_, mapM_hexValue? (isHex_of_mem_hexPadded width n), ?_⟩
  · have hzero : hexValue? '0' = some 0 := by decide
    simp only [hexPadded, List.filterMap_append]
    rw [List.filterMap_replicate_of_some hzero, ofDigits_replicate_zero, ofDigits_hex]

end Text
end Atoll
