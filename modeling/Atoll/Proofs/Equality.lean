import Atoll.Proofs.Doubles
import Atoll.Proofs.Outcome
import Atoll.Value.Operator

/-!
# Equality is an equality

Strict equality goes by value or by identity, and loose equality brings values of different kinds
together first, the text of an object in the object's place.  The branches for an object on the left
and on the right mirror each other.

* `Value.strictEq_comm`, `Value.strictEq_self` — strict equality is symmetric, and reflexive but for
  not a number.
* `Value.looseEqPlain_ok` — between values of which none is turned into a text, loose equality has a
  result.
* `Value.looseEq_comm` — **loose equality is symmetric**, its failures included.
* `Value.equality_laws` — the laws together.
-/

set_option autoImplicit false

namespace Atoll
namespace Value

variable (a b : Value)

open Atoll.Expr (Fault)

/-! ## Strict equality -/

theorem same_comm : same a b = same b a := by
  cases a <;> cases b <;> simp only [same, Bool.beq_comm]

theorem strictEq_comm : strictEq a b = strictEq b a := by
  cases a <;> cases b <;> simp only [strictEq, same_comm, Bool.beq_comm, Number.eq_comm]

theorem category_eq_of_strictEq {a b : Value} (h : strictEq a b = true) :
    a.category = b.category := by
  cases a <;> cases b <;> first | rfl | cases h

/-- **All but not a number equals itself.** -/
theorem strictEq_self (v : Value) :
    strictEq v v = true ↔ ∀ x, v = .number (.float x) → Double.isNaN x = false := by
  cases v with
  | number n => simpa [strictEq] using n.eq_self
  | _ => simp [strictEq, same]

/-! ## Loose equality -/

theorem toNumber_of_isPrimitive {v : Value} (h : v.isPrimitive = true) :
    ∃ n, v.toNumber = .ok n := by
  cases v with
  | bool b => exact ⟨_, rfl⟩
  | number n => exact ⟨_, rfl⟩
  | string s => exact ⟨_, rfl⟩
  | _ => cases h

/-- Without texts to make, loose equality has a result, and the same one from both sides. -/
theorem looseEqPlain_ok : ∃ r, looseEqPlain a b = .ok r ∧ looseEqPlain b a = .ok r := by
  rw [looseEqPlain, looseEqPlain, strictEq_comm b a,
    Bool.beq_comm (a := b.category) (b := a.category), Bool.or_comm b.isNothing,
    Bool.and_comm b.isNothing, Bool.and_comm b.isPrimitive]
  split
  · exact ⟨_, rfl, rfl⟩
  · split
    · exact ⟨_, rfl, rfl⟩
    · split
      · rename_i hprimitive
        obtain ⟨hleft, hright⟩ := Bool.and_eq_true_iff.1 hprimitive
        obtain ⟨m, hm⟩ := toNumber_of_isPrimitive hleft
        obtain ⟨n, hn⟩ := toNumber_of_isPrimitive hright
        rw [hm, hn]
        exact ⟨_, rfl, congrArg Except.ok (Number.eq_comm n m)⟩
      · exact ⟨_, rfl, rfl⟩

theorem looseEqPlain_comm : looseEqPlain a b = looseEqPlain b a := by
  obtain ⟨r, hleft, hright⟩ := looseEqPlain_ok a b
  rw [hleft, hright]

/-- **Loose equality is symmetric**: it has the same result or the same failure from both sides. -/
theorem looseEq_comm : looseEq a b = looseEq b a := by
  rw [looseEq, looseEq, Bool.or_comm b.isNothing, Bool.beq_comm (a := b.category) (b := a.category)]
  split
  · exact looseEqPlain_comm a b
  · rename_i hdifferent
    by_cases ha : (a.category == .object) = true
    · -- only one of them is an object, so that the two texts are never both made
      have hb : ¬(b.category == .object) = true := by
        intro hb
        simp [eq_of_beq ha, eq_of_beq hb] at hdifferent
      rw [if_pos ha, if_neg hb, if_pos ha]
      simp only [looseEqPlain_comm b]
    · rw [if_neg ha, if_neg ha]
      simp only [looseEqPlain_comm a]

theorem looseEq_lacksText : FailsWith Fault.LacksText (looseEq a b) := by
  have hplain (a b : Value) : FailsWith Fault.LacksText (looseEqPlain a b) := by
    obtain ⟨r, hr, -⟩ := looseEqPlain_ok a b
    rw [hr]
    exact .ok r
  rw [looseEq]
  split
  · exact hplain a b
  · split
    · exact a.toText_lacksText.bind fun s => hplain (.string s) b
    · split
      · exact b.toText_lacksText.bind fun s => hplain a (.string s)
      · exact hplain a b

theorem looseEq_of_strictEq {a b : Value} (h : strictEq a b = true) : looseEq a b = .ok true := by
  have hcategory : (a.category == b.category) = true := beq_iff_eq.2 (category_eq_of_strictEq h)
  rw [looseEq, hcategory, Bool.or_true, if_pos rfl, looseEqPlain, if_pos hcategory, h]

/-- Nothing equals nothing else. -/
theorem looseEq_of_isNothing {a b : Value} (h : a.isNothing ≠ b.isNothing) :
    looseEq a b = .ok false := by
  have hone : (a.isNothing || b.isNothing) = true ∧ (a.isNothing && b.isNothing) = false := by
    revert h
    cases a.isNothing <;> cases b.isNothing <;> decide
  have hcategory : ¬(a.category == b.category) = true := by
    intro hsame
    have hnothing (v : Value) :
        v.isNothing = (v.category == .undefined || v.category == .null) := by
      cases v <;> rfl
    rw [hnothing, hnothing, eq_of_beq hsame] at h
    exact h rfl
  rw [looseEq, hone.1, Bool.true_or, if_pos rfl, looseEqPlain, if_neg hcategory, if_pos hone.1,
    hone.2]

/-- **Equality behaves like one.**  Both equalities are symmetric, loose equality with its failures,
which say that a value has no text.  What is strictly equal is loosely equal, everything but not a
number is strictly equal to itself, and nothing is loosely equal to nothing only. -/
theorem equality_laws (a b : Value) :
    strictEq a b = strictEq b a ∧
      looseEq a b = looseEq b a ∧
      (∀ fault, looseEq a b = .error fault → ∃ reason, fault = .because reason) ∧
      (strictEq a b = true → looseEq a b = .ok true) ∧
      (strictEq a a = true ↔ ∀ x, a = .number (.float x) → Double.isNaN x = false) ∧
      (a.isNothing ≠ b.isNothing → looseEq a b = .ok false) := by
  refine ⟨strictEq_comm a b, looseEq_comm a b, fun fault h => ?_, looseEq_of_strictEq,
    strictEq_self a, looseEq_of_isNothing⟩
  have hlacks := looseEq_lacksText a b
  rw [h] at hlacks
  cases hlacks with
  | number => exact ⟨_, rfl⟩
  | kind kind => exact ⟨_, rfl⟩

end Value
end Atoll
