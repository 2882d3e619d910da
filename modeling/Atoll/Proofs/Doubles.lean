import Atoll.Number
import Mathlib

/-!
# How doubles compare, and which integers they reach

A double is taken apart by `Double.view` into exact parts, and compared by the comparison of the
machine.  This file says how the two go together.

* `Double.unpack_eq_notANumber` — the parts of a double say that it is not a number exactly when the
  machine does.
* `Double.compare_swap`, `Double.compare_self` — the comparison of the machine is turned around with
  its sides, and every double but not a number equals itself.
* `Number.compare?_swap`, `Number.eq_self` — **so it is with all numbers**, doubles and integers
  mixed.
* `Double.limit`, `Number.isFinite_int_iff` — **the integers in the range of doubles**: those below
  the middle between the largest double and the next power of two.
-/

set_option autoImplicit false

namespace Atoll
namespace Double

open Float.Model (UnpackedFloat)
open Float.Model.UnpackedFloat (unpackExponent unpackMantissa)

variable {n : Nat}

/-! ## Bits -/

/-- The exponent field in the bits of a double. -/
def exponentField (bits : Nat) : Nat :=
  bits / Nat.pow 2 52 % Nat.pow 2 11

theorem unpackExponent_eq_ones (b : BitVec 64) :
    @unpackExponent .binary64 b = -1#11 ↔ exponentField b.toNat = 2047 := by
  have hfield : (@unpackExponent .binary64 b).toNat = exponentField b.toNat := by
    simp [unpackExponent, Nat.shiftRight_eq_div_pow, exponentField]
  rw [← BitVec.toNat_inj, hfield]
  rfl

theorem unpackMantissa_eq_zero (b : BitVec 64) :
    @unpackMantissa .binary64 b = 0#52 ↔ b.toNat % Nat.pow 2 52 = 0 := by
  have hfraction : (@unpackMantissa .binary64 b).toNat = b.toNat % Nat.pow 2 52 := by
    simp [unpackMantissa]
  rw [← BitVec.toNat_inj, hfraction]
  rfl

theorem viewBits_eq_nan (bits : Nat) :
    viewBits bits = .nan ↔ exponentField bits = 2047 ∧ bits % Nat.pow 2 52 ≠ 0 := by
  rw [viewBits, exponentField]
  split
  · rename_i hones
    split
    · rename_i hzero
      simp [eq_of_beq hzero]
    · rename_i hzero
      exact iff_of_true rfl ⟨eq_of_beq hones, fun h => hzero (beq_iff_eq.2 h)⟩
  · rename_i hones
    have hne : bits / Nat.pow 2 52 % Nat.pow 2 11 ≠ 2047 := fun h => hones (beq_iff_eq.2 h)
    split <;> simp [hne]

/-- A double whose exponent is not all ones is finite. -/
theorem isFinite_of_exponentField {x : Float} (h : exponentField x.toBits.toNat ≠ 2047) :
    isNaN x = false ∧ isInfinite x = false := by
  have hfield : ¬(x.toBits.toNat / Nat.pow 2 52 % Nat.pow 2 11 == 2047) = true := fun hones =>
    h (eq_of_beq hones)
  rw [isNaN, isInfinite, view, viewBits, if_neg hfield]
  split <;> exact ⟨rfl, rfl⟩

/-- **A double is not a number by its parts exactly when it is none for the machine.** -/
theorem unpack_eq_notANumber (x : Float) :
    x.toModel.unpack = .notANumber ↔ isNaN x = true := by
  have hbits : x.toBits.toNat = x.toModel.toBits.toBitVec.toNat := rfl
  rw [isNaN, beq_iff_eq, view, viewBits_eq_nan, hbits, ← unpackExponent_eq_ones, Ne,
    ← unpackMantissa_eq_zero, Float.Model.unpack, UnpackedFloat.unpack]
  dsimp only
  split
  · rename_i hones
    split
    · rename_i hzero
      simp [hzero]
    · rename_i hzero
      simp [hones, hzero]
  · rename_i hones
    have hnot : ¬(@unpackExponent .binary64 x.toModel.toBits.toBitVec = -1#11 ∧
        ¬@unpackMantissa .binary64 x.toModel.toBits.toBitVec = 0#52) := fun h => hones h.1
    split
    · split <;> exact iff_of_false (by rintro ⟨⟩) hnot
    · exact iff_of_false (by rintro ⟨⟩) hnot

/-- Bits with an exponent that is not all ones make a double with such an exponent. -/
theorem exponentField_ofBits {b : UInt64} (h : exponentField b.toNat ≠ 2047) :
    exponentField (Float.ofBits b).toBits.toNat ≠ 2047 := by
  have hb : @unpackExponent .binary64 b.toBitVec ≠ -1#11 := fun hones =>
    h ((unpackExponent_eq_ones b.toBitVec).1 hones)
  refine fun hones =>
    absurd ((unpackExponent_eq_ones (Float.ofBits b).toBits.toBitVec).2 hones) ?_
  show @unpackExponent .binary64
    (UnpackedFloat.pack .binary64 (UnpackedFloat.unpack .binary64 b.toBitVec)) ≠ -1#11
  rw [UnpackedFloat.unpack]
  dsimp only
  rw [if_neg hb]
  split
  · rename_i hzero
    rw [hzero]
    split
    · rw [UnpackedFloat.pack, UnpackedFloat.packedZero, UnpackedFloat.unpackExponent_packComponents]
      decide
    · rw [UnpackedFloat.pack]
      dsimp only
      rw [if_neg (by decide)]
      split <;> rw [UnpackedFloat.unpackExponent_packComponents] <;> decide
  · have hbiased (m : Nat) :
        (((@unpackExponent .binary64 b.toBitVec).toNat : Int) - (m + (52 : Nat)) + m +
          (52 : Nat)).toNat = (@unpackExponent .binary64 b.toBitVec).toNat := by omega
    have hlt : (@unpackExponent .binary64 b.toBitVec).toNat < 2048 :=
      (@unpackExponent .binary64 b.toBitVec).isLt
    have hne : (@unpackExponent .binary64 b.toBitVec).toNat ≠ 2047 := fun heq =>
      hb (BitVec.eq_of_toNat_eq heq)
    rw [UnpackedFloat.pack]
    dsimp only
    rw [hbiased, if_neg (by omega), BitVec.ofNat_toNat, BitVec.setWidth_eq]
    split <;> rw [UnpackedFloat.unpackExponent_packComponents]
    · exact hb
    · decide

/-! ## Comparing -/

/-- The comparison of the machine, with its sides changed. -/
theorem compare_swap (a b : UnpackedFloat) : (a.compare b).map Ordering.swap = b.compare a := by
  have hparts (m n : Nat) (e f : Int) :
      ((compare e f).then (compare m n)).swap = (compare f e).then (compare n m) := by
    rw [Ordering.swap_then, ← Std.OrientedOrd.eq_swap, ← Std.OrientedOrd.eq_swap]
  cases a with
  | notANumber => cases b <;> rfl
  | infinity s => rcases b with ⟨_ | _⟩ | _ | ⟨_ | _⟩ | ⟨_ | _, _, _, _⟩ <;> cases s <;> rfl
  | zero s => rcases b with ⟨_ | _⟩ | _ | ⟨_ | _⟩ | ⟨_ | _, _, _, _⟩ <;> cases s <;> rfl
  | finite s m e h =>
    rcases b with ⟨_ | _⟩ | _ | ⟨_ | _⟩ | ⟨_ | _, n, f, _⟩ <;> cases s
    case finite.negative.negative => simp [UnpackedFloat.compare, hparts]
    case finite.positive.positive => simp [UnpackedFloat.compare, hparts]
    all_goals rfl

theorem compare_self {a : UnpackedFloat} (h : a ≠ .notANumber) : a.compare a = some .eq := by
  rcases a with ⟨_ | _⟩ | _ | ⟨_ | _⟩ | ⟨_ | _, m, e, _⟩
  case notANumber => exact absurd rfl h
  all_goals simp [UnpackedFloat.compare]
  all_goals rfl

/-! ## Rounding integers -/

/-- The least natural number beyond all doubles: the middle between the largest double and the next
power of two. -/
def limit : Nat :=
  2 ^ 1024 - 2 ^ 970

section

variable {n : Nat} (hn : n ≠ 0)
include hn

/-- A natural number scaled to 53 bits before the point. -/
theorem scaleDown_bounds :
    let scaled := scaleDown n 1 ((n.log2 : Int) - 52)
    2 ^ 52 ≤ scaled.1 / scaled.2 ∧ scaled.1 / scaled.2 < 2 ^ 53 := by
  have hlow := Nat.log2_self_le hn
  have hhigh : n < 2 ^ (n.log2 + 1) := Nat.lt_log2_self
  dsimp only
  by_cases hsmall : n.log2 < 52
  · obtain ⟨k, hk⟩ := Nat.exists_eq_add_of_lt hsmall
    have hscale : scaleDown n 1 ((n.log2 : Int) - 52) = (n * 2 ^ (k + 1), 1) := by
      rw [scaleDown, if_pos (by omega), show (-((n.log2 : Int) - 52)).toNat = k + 1 by omega]
      rfl
    have hlog : 2 ^ n.log2 * 2 ^ (k + 1) = 2 ^ 52 := by
      rw [← Nat.pow_add, ← Nat.add_assoc, ← hk]
    rw [hscale, Nat.div_one]
    constructor
    · calc 2 ^ 52 = 2 ^ n.log2 * 2 ^ (k + 1) := hlog.symm
        _ ≤ n * 2 ^ (k + 1) := Nat.mul_le_mul_right _ hlow
    · calc n * 2 ^ (k + 1) < 2 ^ (n.log2 + 1) * 2 ^ (k + 1) :=
          Nat.mul_lt_mul_of_pos_right hhigh (Nat.two_pow_pos _)
        _ = 2 ^ 52 * 2 := by rw [Nat.pow_succ, Nat.mul_right_comm, hlog]
  · obtain ⟨k, hk⟩ := Nat.exists_eq_add_of_le (Nat.not_lt.1 hsmall)
    have hscale : scaleDown n 1 ((n.log2 : Int) - 52) = (n, 2 ^ k) := by
      rw [scaleDown, if_neg (by omega), show ((n.log2 : Int) - 52).toNat = k by omega, Nat.one_mul]
      rfl
    rw [hk] at hlow hhigh
    rw [hscale, Nat.le_div_iff_mul_le (Nat.two_pow_pos k),
      Nat.div_lt_iff_lt_mul (Nat.two_pow_pos k)]
    constructor
    · calc 2 ^ 52 * 2 ^ k = 2 ^ (52 + k) := (Nat.pow_add 2 52 k).symm
        _ ≤ n := hlow
    · calc n < 2 ^ (52 + k + 1) := hhigh
        _ = 2 ^ 53 * 2 ^ k := by rw [← Nat.pow_add, Nat.add_right_comm]

theorem exponentFor_one : exponentFor n 1 = (n.log2 : Int) - 52 := by
  have hone : Nat.log2 1 = 0 := by decide
  have hlow : ¬(scaleDown n 1 ((n.log2 : Int) - 52)).1 / (scaleDown n 1 ((n.log2 : Int) - 52)).2 <
      Nat.pow 2 52 := Nat.not_lt.2 (scaleDown_bounds hn).1
  rw [exponentFor, hone, Nat.cast_zero, Int.sub_zero]
  simp only [if_neg hlow]
  omega

end

/-- A quotient is rounded down, or up to the next number. -/
theorem roundDiv_cases (n d : Nat) : roundDiv n d = n / d ∨ roundDiv n d = n / d + 1 := by
  rw [roundDiv]
  split
  · exact .inr rfl
  · exact .inl rfl

/-- Of the numbers below `2 ^ 53` times an even divisor, the last half divisor is rounded up to all
of it. -/
theorem roundDiv_eq_top {d : Nat} (h : n < 2 ^ 53 * (2 * d)) :
    roundDiv n (2 * d) = 2 ^ 53 ↔ (2 ^ 53 - 1) * (2 * d) + d ≤ n := by
  have hd : 0 < 2 * d := by
    by_contra hzero
    simp [Nat.eq_zero_of_not_pos hzero] at h
  have hq : n / (2 * d) < 2 ^ 53 := Nat.div_lt_of_lt_mul (by rwa [Nat.mul_comm])
  have hn := Nat.div_add_mod n (2 * d)
  have hr := Nat.mod_lt n hd
  rw [roundDiv]
  generalize n / (2 * d) = q at *
  generalize n % (2 * d) = r at *
  simp only [Bool.or_eq_true, Bool.and_eq_true, decide_eq_true_eq, beq_iff_eq]
  constructor
  · intro htop
    split at htop
    · rw [show q = 2 ^ 53 - 1 by omega] at hn
      omega
    · omega
  · intro hle
    have htop : q = 2 ^ 53 - 1 := by
      by_contra hne
      have hbelow := Nat.mul_le_mul_left (2 * d) (show q ≤ 2 ^ 53 - 2 by omega)
      omega
    rw [htop] at hn ⊢
    exact if_pos (by omega)

/-- The mantissa to which a natural number is rounded. -/
def mantissaOf (n : Nat) : Nat :=
  roundDiv (scaleDown n 1 ((n.log2 : Int) - 52)).1 (scaleDown n 1 ((n.log2 : Int) - 52)).2

theorem mantissaOf_bounds (hn : n ≠ 0) : 2 ^ 52 ≤ mantissaOf n ∧ mantissaOf n ≤ 2 ^ 53 := by
  have hbounds := scaleDown_bounds hn
  dsimp only at hbounds
  rw [mantissaOf]
  rcases roundDiv_cases (scaleDown n 1 ((n.log2 : Int) - 52)).1
    (scaleDown n 1 ((n.log2 : Int) - 52)).2 with h | h <;> omega

/-- A natural number overflows with its bits, or when it is rounded up to the next power of two. -/
theorem ratioBits_one (hn : n ≠ 0) :
    ratioBits n 1 =
      if mantissaOf n = 2 ^ 53 then
        if 1023 ≤ n.log2 then 2047 * 2 ^ 52 else (n.log2 + 1024) * 2 ^ 52
      else if 1024 ≤ n.log2 then 2047 * 2 ^ 52
      else (n.log2 + 1023) * 2 ^ 52 + (mantissaOf n - 2 ^ 52) := by
  have hne : ¬(n == 0 || 1 == 0) = true := by simpa using hn
  have hlow : ¬mantissaOf n < Nat.pow 2 52 := Nat.not_lt.2 (mantissaOf_bounds hn).1
  rw [ratioBits, if_neg hne, exponentFor_one hn]
  dsimp only
  rw [← mantissaOf]
  by_cases htop : mantissaOf n = 2 ^ 53
  · have hbeq : (mantissaOf n == Nat.pow 2 53) = true := beq_iff_eq.2 htop
    rw [if_pos htop, if_pos hbeq]
    dsimp only
    rw [if_neg (Nat.lt_irrefl _), Nat.sub_self, Nat.add_zero,
      show ((n.log2 : Int) - 52 + 1 + 1075).toNat = n.log2 + 1024 by omega]
    exact if_congr (by omega) rfl rfl
  · have hbeq : ¬(mantissaOf n == Nat.pow 2 53) = true := fun h => htop (beq_iff_eq.1 h)
    rw [if_neg htop, if_neg hbeq]
    dsimp only
    rw [if_neg hlow, show ((n.log2 : Int) - 52 + 1075).toNat = n.log2 + 1023 by omega]
    exact if_congr (by omega) rfl rfl

theorem ratioBits_one_lt_iff (hn : n ≠ 0) :
    ratioBits n 1 < 2047 * 2 ^ 52 ↔ n.log2 < 1023 ∨ n.log2 = 1023 ∧ mantissaOf n ≠ 2 ^ 53 := by
  obtain ⟨hlow, hhigh⟩ := mantissaOf_bounds hn
  rw [ratioBits_one hn]
  split
  · split <;> omega
  · split <;> omega

theorem ratioBits_one_le (n : Nat) : ratioBits n 1 ≤ 2047 * 2 ^ 52 := by
  by_cases hn : n = 0
  · rw [hn]
    decide
  · obtain ⟨hlow, hhigh⟩ := mantissaOf_bounds hn
    have hstep (e : Nat) (h : e ≤ 2046) : (e + 1) * 2 ^ 52 ≤ 2047 * 2 ^ 52 :=
      Nat.mul_le_mul_right _ (by omega)
    rw [ratioBits_one hn]
    split
    · split
      · exact le_rfl
      · exact hstep _ (by omega)
    · split
      · exact le_rfl
      · exact le_trans (by omega) (hstep (n.log2 + 1023) (by omega))

/-- Below a power of two, the last half step between doubles is rounded up to that power. -/
theorem mantissaOf_eq_top {k : Nat} (h : n.log2 = 53 + k) :
    mantissaOf n = 2 ^ 53 ↔ 2 ^ (54 + k) - 2 ^ k ≤ n := by
  have hscale : scaleDown n 1 ((n.log2 : Int) - 52) = (n, 2 * 2 ^ k) := by
    rw [scaleDown, if_neg (by omega), show ((n.log2 : Int) - 52).toNat = k + 1 by omega,
      Nat.one_mul]
    exact congrArg (Prod.mk n) Nat.pow_succ'
  have htop : 2 ^ (54 + k) = 2 ^ 53 * (2 * 2 ^ k) := by
    rw [Nat.pow_add, ← Nat.mul_assoc, ← Nat.pow_succ]
  have hlt : n < 2 ^ 53 * (2 * 2 ^ k) := by
    have hhigh : n < 2 ^ (n.log2 + 1) := Nat.lt_log2_self
    rwa [h, show 53 + k + 1 = 54 + k by omega, htop] at hhigh
  rw [mantissaOf, hscale, roundDiv_eq_top hlt, htop]
  generalize 2 ^ k = d
  omega

theorem lt_iff_log2 (hn : n ≠ 0) (k : Nat) :
    n < 2 ^ (54 + k) - 2 ^ k ↔
      n.log2 < 53 + k ∨ n.log2 = 53 + k ∧ mantissaOf n ≠ 2 ^ 53 := by
  have htop : 2 ^ (54 + k) = 2 * 2 ^ (53 + k) := by
    rw [show 54 + k = 53 + k + 1 by omega, Nat.pow_succ']
  have hstep : 2 ^ k ≤ 2 ^ (53 + k) := Nat.pow_le_pow_right (by decide) (by omega)
  rcases Nat.lt_trichotomy n.log2 (53 + k) with hlt | heq | hgt
  · have hsmall := (Nat.log2_lt hn).1 hlt
    rw [htop]
    exact iff_of_true (by omega) (.inl hlt)
  · rw [← Nat.not_le, ← mantissaOf_eq_top heq]
    omega
  · have hlarge : 2 ^ (53 + k + 1) ≤ n := (Nat.le_log2 hn).1 hgt
    rw [Nat.pow_succ', ← htop] at hlarge
    exact iff_of_false (Nat.not_lt.2 ((Nat.sub_le _ _).trans hlarge)) (by omega)

/-- **The natural numbers from `limit` on overflow.** -/
theorem ratioBits_one_lt_iff_limit (n : Nat) : ratioBits n 1 < 2047 * 2 ^ 52 ↔ n < limit := by
  rw [limit, show 1024 = 54 + 970 from rfl]
  by_cases hn : n = 0
  · have hpos (k : Nat) : 0 < 2 ^ (54 + k) - 2 ^ k :=
      Nat.sub_pos_of_lt (Nat.pow_lt_pow_right (by decide) (by omega))
    rw [hn]
    exact iff_of_true (by decide) (hpos 970)
  · rw [ratioBits_one_lt_iff hn, lt_iff_log2 hn 970]

/-- The double next to an integer is finite below the limit, and infinite from there on. -/
theorem ofInt_bounds (n : Int) :
    (n.natAbs < limit → isNaN (ofInt n) = false ∧ isInfinite (ofInt n) = false) ∧
      (limit ≤ n.natAbs → isInfinite (ofInt n) = true) := by
  constructor
  · intro h
    have hbits := (ratioBits_one_lt_iff_limit n.natAbs).2 h
    refine isFinite_of_exponentField (exponentField_ofBits ?_)
    have hsign : (if decide (n < 0) then Nat.pow 2 63 else 0) = 0 ∨
        (if decide (n < 0) then Nat.pow 2 63 else 0) = 2 ^ 63 := by
      split
      · exact .inr rfl
      · exact .inl rfl
    rw [exponentField, UInt64.toNat_ofNat']
    show (_ + ratioBits n.natAbs 1) % 2 ^ 64 / 2 ^ 52 % 2 ^ 11 ≠ 2047
    rcases hsign with hsign | hsign <;> omega
  · intro h
    have hbits : ratioBits n.natAbs 1 = 2047 * Nat.pow 2 52 := Nat.le_antisymm
      (ratioBits_one_le _) (Nat.not_lt.1 fun hlt =>
        Nat.not_lt.2 h ((ratioBits_one_lt_iff_limit n.natAbs).1 hlt))
    rw [ofInt, ofRatio, hbits]
    cases decide (n < 0) <;> decide

end Double

/-! ## Numbers -/

namespace Number

/-- Doubles compare as the machine says. -/
theorem compare?_float (x y : Float) :
    compare? (.float x) (.float y) = x.toModel.unpack.compare y.toModel.unpack := by
  have hlt (x y : Float) : x < y ↔ x.toModel.unpack.compare y.toModel.unpack = some .lt := by
    show decide (x.toModel < y.toModel) = true ↔ _
    rw [decide_eq_true_iff]
    exact beq_iff_eq
  have heq : (x == y) = true ↔ x.toModel.unpack.compare y.toModel.unpack = some .eq := by
    show (x.toModel.unpack.compare y.toModel.unpack == some .eq) = true ↔ _
    exact beq_iff_eq
  simp only [compare?, hlt, heq, ← Double.compare_swap x.toModel.unpack y.toModel.unpack]
  generalize x.toModel.unpack.compare y.toModel.unpack = o
  rcases o with _ | _ | _ | _ <;> rfl

/-- **How two numbers compare, with their sides changed.** -/
theorem compare?_swap (a b : Number) : (compare? a b).map Ordering.swap = compare? b a := by
  have htwice (o : Option Ordering) : (o.map Ordering.swap).map Ordering.swap = o := by
    rcases o with _ | _ | _ | _ <;> rfl
  rcases a with m | x <;> rcases b with n | y
  · exact congrArg some (Std.OrientedOrd.eq_swap (a := n) (b := m)).symm
  · rfl
  · exact htwice _
  · rw [compare?_float, compare?_float, Double.compare_swap]

theorem eq_comm (a b : Number) : eq a b = eq b a := by
  rw [eq, eq, ← compare?_swap b a]
  rcases compare? b a with _ | _ | _ | _ <;> rfl

/-- **Every number but not a number equals itself.** -/
theorem eq_self (n : Number) : eq n n = true ↔ ∀ x, n = .float x → Double.isNaN x = false := by
  rcases n with n | x
  · simp [eq, compare?]
  · have hself : eq (.float x) (.float x) = true ↔ x.toModel.unpack ≠ .notANumber := by
      rw [eq, compare?_float, beq_iff_eq]
      constructor
      · intro h hnan
        rw [hnan] at h
        cases h
      · exact Double.compare_self
    rw [hself, Ne, Double.unpack_eq_notANumber, Bool.not_eq_true]
    constructor
    · rintro h y ⟨⟩
      exact h
    · exact fun h => h x rfl

/-- **The integers in the range of doubles** are those below the limit. -/
theorem isFinite_int_iff (n : Int) : isFinite (.int n) = true ↔ n.natAbs < Double.limit := by
  obtain ⟨hsmall, hlarge⟩ := Double.ofInt_bounds n
  rw [isFinite, toFloat]
  by_cases h : n.natAbs < Double.limit
  · obtain ⟨hnan, hinfinite⟩ := hsmall h
    simp [hnan, hinfinite, h]
  · simp [hlarge (Nat.not_lt.1 h), h]

/-- An integer has a double, or it is beyond the limit. -/
theorem toFloat_int (n : Int) : (∃ x, toFloat (.int n) = .ok x) ∨
    toFloat (.int n) = .error .largeInteger ∧ Double.limit ≤ n.natAbs := by
  rw [toFloat]
  by_cases h : n.natAbs < Double.limit
  · exact .inl ⟨_, if_neg (Bool.eq_false_iff.1 ((Double.ofInt_bounds n).1 h).2)⟩
  · have hlarge := Nat.not_lt.1 h
    exact .inr ⟨if_pos ((Double.ofInt_bounds n).2 hlarge), hlarge⟩

end Number
end Atoll
