import Atoll.Text.Blank
import Atoll.Text.Word
import Mathlib.Data.List.DropRight

/-!
# Blanks at the ends of a text

What `trimStart`, `trimEnd` and `trim` take away, and what they leave alone.

* `eq_false_of_isBlank` — a kind of characters that no blank code belongs to has no blanks in it.
* `trimStart_append`, `trimEnd_append` — what is not blank shields what stands behind or in front
  of it.
* `exists_trim_append` — a text is its trimmed text with blanks around it.
-/

set_option autoImplicit false

namespace Atoll
namespace Text

variable {s w : List Char} {c : Char}

/-! ## Blanks -/

/-- The codes of the blank characters. -/
def blankCodes : List Nat :=
  blankRanges.flatMap fun (low, high) => List.range' low (high + 1 - low)

/-- No blank is of a kind that none of the blank codes is of. -/
theorem eq_false_of_isBlank {p : Char → Bool}
    (h : blankCodes.all (fun n => !p (Char.ofNat n)) = true) (hc : isBlank c = true) :
    p c = false := by
  have hmem : c.toNat ∈ blankCodes := by
    obtain ⟨⟨low, high⟩, hrange, hin⟩ := List.any_eq_true.1 hc
    refine List.mem_flatMap.2 ⟨(low, high), hrange, ?_⟩
    rw [Bool.and_eq_true, decide_eq_true_eq, decide_eq_true_eq] at hin
    rw [List.mem_range'_1]
    omega
  have hnot := List.all_eq_true.1 h _ hmem
  rw [Char.ofNat_toNat] at hnot
  simpa using hnot

theorem isBlank_of_all (h : s.all (fun c => !isBlank c) = true) : ∀ c ∈ s, isBlank c = false :=
  fun c hc => by simpa using List.all_eq_true.1 h c hc

theorem ne_of_isBlank {b : Char} (hb : isBlank b = true) (hc : isBlank c = false) : b ≠ c := by
  rintro rfl
  exact Bool.false_ne_true (hc.symm.trans hb)

theorem isWord_of_isBlank (h : isBlank c = true) : isWord c = false :=
  eq_false_of_isBlank (by decide +kernel) h

theorem isNameRest_of_isBlank (h : isBlank c = true) : isNameRest c = false := by
  simp [isNameRest, isWord_of_isBlank h, ne_of_isBlank (c := '$') h rfl]

/-! ## In front -/

theorem trimStart_of_head (hc : isBlank c = false) (cs : List Char) :
    trimStart (c :: cs) = c :: cs := by
  simp [trimStart, hc]

theorem trimStart_append (h : trimStart s ≠ []) (w : List Char) :
    trimStart (s ++ w) = trimStart s ++ w ∧
      (s ++ w).takeWhile isBlank = s.takeWhile isBlank := by
  induction s with
  | nil => exact absurd rfl h
  | cons c cs ih =>
    cases hc : isBlank c with
    | false => simp [trimStart, hc]
    | true =>
      have hcs : trimStart cs ≠ [] := by simpa [trimStart, hc] using h
      obtain ⟨hdrop, htake⟩ := ih hcs
      simp only [trimStart] at hdrop
      simp [trimStart, hc, hdrop, htake]

theorem trimStart_eq_nil : trimStart s = [] ↔ allBlank s = true := by
  rw [trimStart, List.dropWhile_eq_nil_iff, allBlank, List.all_eq_true]

/-- Only blanks are taken away. -/
theorem allBlank_trimStart (s : List Char) : allBlank (trimStart s) = allBlank s := by
  induction s with
  | nil => rfl
  | cons c cs ih =>
    cases hc : isBlank c with
    | false => rw [trimStart_of_head hc]
    | true => simpa [trimStart, allBlank, hc] using ih

/-! ## Behind -/

theorem trimEnd_eq_nil : trimEnd s = [] ↔ allBlank s = true := by
  rw [trimEnd, List.reverse_eq_nil_iff, List.dropWhile_eq_nil_iff, allBlank, List.all_eq_true]
  simp only [List.mem_reverse]

/-- The blanks at the end of a text. -/
theorem exists_trimEnd_append (s : List Char) :
    ∃ w, (∀ c ∈ w, isBlank c = true) ∧ s = trimEnd s ++ w := by
  refine ⟨(s.reverse.takeWhile isBlank).reverse, fun c hc => ?_, ?_⟩
  · exact List.all_eq_true.1 List.all_takeWhile c (List.mem_reverse.1 hc)
  · rw [trimEnd, ← List.reverse_append, List.takeWhile_append_dropWhile, List.reverse_reverse]

theorem trimEnd_append_blank (hw : ∀ c ∈ w, isBlank c = true) (s : List Char) :
    trimEnd (s ++ w) = trimEnd s := by
  have hrev : ∀ c ∈ w.reverse, isBlank c = true := fun c hc => hw c (List.mem_reverse.1 hc)
  rw [trimEnd, List.reverse_append, List.dropWhile_append_of_pos hrev, trimEnd]

/-- What stands in front of something that is not blank stays. -/
theorem trimEnd_append (h : trimEnd s ≠ []) (lead : List Char) :
    trimEnd (lead ++ s) = lead ++ trimEnd s := by
  have hrev : trimStart s.reverse ≠ [] := fun hnil => h (by rw [trimEnd, ← trimStart, hnil]; rfl)
  have happend := (trimStart_append hrev lead.reverse).1
  rw [trimEnd, List.reverse_append, ← trimStart, happend, List.reverse_append, List.reverse_reverse]
  rfl

theorem trimEnd_trimEnd (s : List Char) : trimEnd (trimEnd s) = trimEnd s := by
  rw [trimEnd, trimEnd, List.reverse_reverse, List.dropWhile_idempotent]

/-! ## On both sides -/

theorem trim_trimEnd (s : List Char) : trim (trimEnd s) = trim s := by
  obtain ⟨w, hw, hs⟩ := exists_trimEnd_append s
  by_cases hnil : trimStart (trimEnd s) = []
  · have hblank : ∀ c ∈ trimEnd s ++ w, isBlank c = true :=
      List.forall_mem_append.2 ⟨List.dropWhile_eq_nil_iff.1 hnil, hw⟩
    have hstart : trimStart s = [] := by
      rw [hs]
      exact List.dropWhile_eq_nil_iff.2 hblank
    rw [trim, trim, hnil, hstart]
  · have hstart : trimStart s = trimStart (trimEnd s) ++ w := by
      nth_rewrite 1 [hs]
      exact (trimStart_append hnil w).1
    rw [trim, trim, hstart, trimEnd_append_blank hw]

theorem trim_eq_self (h : ∀ c ∈ s, isBlank c = false) : trim s = s := by
  have hdrop {t : List Char} (ht : ∀ c ∈ t, isBlank c = false) : t.dropWhile isBlank = t := by
    cases t with
    | nil => rfl
    | cons c cs => simp [ht c List.mem_cons_self]
  rw [trim, trimStart, hdrop h, trimEnd, hdrop fun c hc => h c (List.mem_reverse.1 hc),
    List.reverse_reverse]

theorem trim_trim (s : List Char) : trim (trim s) = trim s := by
  have hstart : trimStart (trimStart s) = trimStart s := List.dropWhile_idempotent ..
  calc trim (trimEnd (trimStart s))
      = trim (trimStart s) := trim_trimEnd _
    _ = trim s := by rw [trim, hstart, trim]

/-- Blanks in front of a text do not matter. -/
theorem trim_blank_append (hw : ∀ c ∈ w, isBlank c = true) (s : List Char) :
    trim (w ++ s) = trim s := by
  rw [trim, trimStart, List.dropWhile_append_of_pos hw, trim, trimStart]

/-- Blanks behind a text do not matter. -/
theorem trim_append_blank (hw : ∀ c ∈ w, isBlank c = true) (s : List Char) :
    trim (s ++ w) = trim s := by
  rw [← trim_trimEnd, trimEnd_append_blank hw, trim_trimEnd]

theorem exists_trim_append (s : List Char) :
    ∃ v w, (∀ c ∈ v, isBlank c = true) ∧ (∀ c ∈ w, isBlank c = true) ∧ s = v ++ (trim s ++ w) := by
  obtain ⟨w, hw, hs⟩ := exists_trimEnd_append (trimStart s)
  refine ⟨s.takeWhile isBlank, w, List.all_eq_true.1 List.all_takeWhile, hw, ?_⟩
  rw [trim, ← hs, trimStart, List.takeWhile_append_dropWhile]

end Text
end Atoll
