import Atoll.Position
import Atoll.Text.Search

/-!
# Positions say where they are

`Position.across` moves a position over a text one character at a time.  Here the three numbers of
the position it arrives at are worked out from the text that was crossed.

* `Position.offset_across`, `Position.line_across`, `Position.column_across` — offset, line and
  column behind a text.
* `Position.Exact s p` — the numbers of `p` are those of a place in the text `s`: newlines before it
  and characters since the last of them.
* `Position.exact_ofOffset` — **every position made by walking over a text is exact.**
-/

set_option autoImplicit false

namespace Atoll
namespace Text

/-- The offset at which the last line of a text starts: just behind its last newline. -/
def lineStart (s : List Char) : Nat :=
  match findLast? ['\n'] s with
  | some i => i + 1
  | none => 0

theorem findLast?_newline_cons (c : Char) (cs : List Char) :
    findLast? ['\n'] (c :: cs) =
      match findLast? ['\n'] cs with
      | some i => some (i + 1)
      | none => if c = '\n' then some 0 else none := by
  rw [findLast?]
  cases findLast? ['\n'] cs with
  | some i => rfl
  | none =>
    by_cases hc : c = '\n'
    · simp [hc]
    · simp [hc, Ne.symm hc]

end Text

namespace Position

variable (p : Position)

open Text

/-! ## Walking over a text -/

theorem across_cons (c : Char) (cs : List Char) :
    p.across (c :: cs) = (p.next c).across cs := rfl

theorem across_append (a b : List Char) : p.across (a ++ b) = (p.across a).across b := by
  rw [across, List.foldl_append]
  rfl

theorem offset_next (c : Char) : (p.next c).offset = p.offset + 1 := by
  rw [next]
  split <;> rfl

theorem offset_across (s : List Char) : (p.across s).offset = p.offset + s.length := by
  induction s generalizing p with
  | nil => simp [across]
  | cons c cs ih =>
    rw [across_cons, ih, offset_next, List.length_cons]
    omega

theorem line_across (s : List Char) : (p.across s).line = p.line + s.count '\n' := by
  induction s generalizing p with
  | nil => simp [across]
  | cons c cs ih =>
    rw [across_cons, ih, List.count_cons, next]
    by_cases hc : c = '\n'
    · simp only [hc, beq_self_eq_true, if_true]
      omega
    · simp [hc]

/-- The column counts from the last newline of the text, or from the start if there is none. -/
theorem column_across (s : List Char) :
    (p.across s).column =
      (findLast? ['\n'] s).elim (p.column + s.length) fun i => (s.length : Int) - i := by
  induction s generalizing p with
  | nil => simp [across, findLast?]
  | cons c cs ih =>
    rw [across_cons, ih, findLast?_newline_cons]
    cases findLast? ['\n'] cs with
    | some i =>
      simp only [Option.elim_some, List.length_cons]
      omega
    | none =>
      by_cases hc : c = '\n'
      · simp [hc, next]
        omega
      · simp [hc, next]
        omega

/-! ## Exact positions -/

/-- The position is that of a place in the text: its line is one more than the newlines before it,
and its column counts from the character behind the last of them. -/
def Exact (s : List Char) (p : Position) : Prop :=
  ∃ k : Nat, k ≤ s.length ∧ p.offset = k ∧ p.line = 1 + ((s.take k).count '\n' : Nat) ∧
    p.column = (k : Int) - lineStart (s.take k) + 1

@[simp] theorem offset_ofOffset (s : List Char) (k : Nat) (hk : k ≤ s.length) :
    (ofOffset s k).offset = k := by
  rw [ofOffset, offset_across, List.length_take, Nat.min_eq_left hk]
  simp [first]

/-- **Walking over a text gives exact positions.** -/
theorem exact_ofOffset {s : List Char} {k : Nat} (hk : k ≤ s.length) : Exact s (ofOffset s k) := by
  have hlen : (s.take k).length = k := by rw [List.length_take, Nat.min_eq_left hk]
  refine ⟨k, hk, offset_ofOffset s k hk, ?_, ?_⟩
  · rw [ofOffset, line_across]
    rfl
  · rw [ofOffset, column_across, lineStart, hlen]
    cases findLast? ['\n'] (s.take k) with
    | some i =>
      simp only [Option.elim_some]
      omega
    | none =>
      simp only [Option.elim_none, first]
      omega

/-- Going on from a place in a text leads to a later place. -/
theorem across_ofOffset (s : List Char) (k n : Nat) :
    (ofOffset s k).across ((s.drop k).take n) = ofOffset s (k + n) := by
  rw [ofOffset, ofOffset, ← across_append, List.take_add]

end Position
end Atoll
