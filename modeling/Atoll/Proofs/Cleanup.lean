import Atoll.Build.Cleanup

/-!
# The cleanup does not see where its input is cut

A `Build.Cleanup` is fed piece by piece.  This file shows that the pieces do not matter: what it
lets go, and the state it is left in, depend only on the text that they make together.

* `Text.cutWhere_append` — the lines of two texts in a row: the complete lines of the first, then
  the lines of its incomplete line with the second text behind it.
* `Cleanup.feed_append` — feeding two texts one after the other is feeding both at once.
* `Cleanup.feedAll_start` — **the pieces of an output can be cut anywhere**: a fresh cleanup treats
  a list of pieces like the one text that they are.
* `tidy_join` — hence a whole output is tidied by feeding its pieces and closing.
-/

set_option autoImplicit false

namespace Atoll
namespace Text

/-! ## Cutting a text in two -/

/-- There is always a last piece, if only an empty one. -/
theorem cutWhere_ne_nil (p : Char → Bool) (s : List Char) : cutWhere p s ≠ [] := by
  cases s with
  | nil => simp [cutWhere]
  | cons c cs =>
    rw [cutWhere]
    split
    · simp
    · split <;> simp

/-- A character that is no cut stands in front of the first piece. -/
theorem cutWhere_cons_of_not {p : Char → Bool} {c : Char} {cs line : List Char}
    {more : List (List Char)} (hc : p c = false) (h : cutWhere p cs = line :: more) :
    cutWhere p (c :: cs) = (c :: line) :: more := by
  rw [cutWhere, h]
  simp [hc]

theorem cutWhere_cons_of_cut {p : Char → Bool} {c : Char} (cs : List Char) (hc : p c = true) :
    cutWhere p (c :: cs) = [] :: cutWhere p cs := by
  rw [cutWhere, if_pos hc]

/-- **The pieces of two texts in a row.**  Only the last piece of the first text can go on in the
second one. -/
theorem cutWhere_append (p : Char → Bool) (a b : List Char) :
    cutWhere p (a ++ b) =
      (cutWhere p a).dropLast ++ cutWhere p ((cutWhere p a).getLast?.getD [] ++ b) := by
  induction a with
  | nil => simp [cutWhere]
  | cons c cs ih =>
    obtain ⟨line, more, h⟩ := List.exists_cons_of_ne_nil (cutWhere_ne_nil p cs)
    rw [h] at ih
    by_cases hc : p c = true
    · rw [List.cons_append, cutWhere_cons_of_cut _ hc, cutWhere_cons_of_cut _ hc, h, ih]
      simp
    · have hc : p c = false := by simpa using hc
      rw [cutWhere_cons_of_not hc h]
      cases more with
      | nil =>
        -- the first text has no cut, so its only piece goes on in the second text
        obtain ⟨l, ls, hb⟩ := List.exists_cons_of_ne_nil (cutWhere_ne_nil p (line ++ b))
        have hcs : cutWhere p (cs ++ b) = l :: ls := by simpa [hb] using ih
        have h1 := cutWhere_cons_of_not hc hcs
        have h2 := cutWhere_cons_of_not hc hb
        simpa [h2] using h1
      | cons l ls =>
        have hcs := ih
        rw [List.dropLast_cons_cons, List.cons_append] at hcs
        have h1 := cutWhere_cons_of_not hc hcs
        rw [List.dropLast_cons_cons]
        simpa using h1

end Text

namespace Build
namespace Cleanup

open Text

/-! ## Feeding in pieces -/

theorem takeLines_append (held : Option (List Char)) (xs ys : List (List Char)) :
    takeLines held (xs ++ ys) =
      ((takeLines (takeLines held xs).1 ys).1,
        (takeLines held xs).2 ++ (takeLines (takeLines held xs).1 ys).2) := by
  induction xs generalizing held with
  | nil => simp [takeLines]
  | cons x xs ih => simp [takeLines, ih]

/-- What `feed` lets go, and the two parts of the state it leaves. -/
theorem feed_eq (c : Cleanup) (piece : String) :
    c.feed piece =
      (⟨(lines (c.pending ++ piece.toList)).getLast?.getD [],
          (takeLines c.held (lines (c.pending ++ piece.toList)).dropLast).1⟩,
        String.ofList (takeLines c.held (lines (c.pending ++ piece.toList)).dropLast).2) := rfl

/-- **Feeding two texts one after the other is feeding both at once.** -/
theorem feed_append (c : Cleanup) (a b : String) :
    c.feed (a ++ b) = (((c.feed a).1.feed b).1, (c.feed a).2 ++ ((c.feed a).1.feed b).2) := by
  have hlines : lines (c.pending ++ (a ++ b).toList) =
      (lines (c.pending ++ a.toList)).dropLast ++
        lines ((lines (c.pending ++ a.toList)).getLast?.getD [] ++ b.toList) := by
    rw [String.toList_append, ← List.append_assoc]
    exact cutWhere_append _ _ _
  have hne : lines ((lines (c.pending ++ a.toList)).getLast?.getD [] ++ b.toList) ≠ [] :=
    cutWhere_ne_nil _ _
  rw [feed_eq c (a ++ b), hlines, List.dropLast_append_of_ne_nil hne, List.getLast?_append,
    List.getLast?_eq_some_getLast hne, takeLines_append, feed_eq c a, feed_eq,
    List.getLast?_eq_some_getLast hne]
  simp

/-- Feeding a list of pieces: the state at the end, and everything let go on the way. -/
def feedAll (c : Cleanup) : List String → Cleanup × String
  | [] => (c, "")
  | piece :: pieces =>
    ((feedAll (c.feed piece).1 pieces).1, (c.feed piece).2 ++ (feedAll (c.feed piece).1 pieces).2)

/-- Pieces fed behind a text go on with it as one text. -/
theorem feedAll_feed (c : Cleanup) (text : String) (pieces : List String) :
    (feedAll (c.feed text).1 pieces).1 = (c.feed (text ++ String.join pieces)).1 ∧
      (c.feed text).2 ++ (feedAll (c.feed text).1 pieces).2 =
        (c.feed (text ++ String.join pieces)).2 := by
  induction pieces generalizing text with
  | nil => simp [feedAll]
  | cons piece pieces ih =>
    have h := ih (text ++ piece)
    rw [feed_append c text piece] at h
    simpa [feedAll, String.append_assoc] using h

/-- **A fresh cleanup does not see where its input is cut.** -/
theorem feedAll_start (pieces : List String) :
    feedAll start pieces = start.feed (String.join pieces) := by
  -- an empty text leaves a fresh cleanup as it is, so the pieces may be taken to follow one
  have hempty : start.feed "" = (start, "") := rfl
  have h := feedAll_feed start "" pieces
  rw [hempty] at h
  exact Prod.ext (by simpa using h.1) (by simpa using h.2)

end Cleanup

/-- **Tidying a whole output is feeding its pieces and closing.** -/
theorem tidy_join (pieces : List String) :
    tidy (String.join pieces) =
      (Cleanup.feedAll .start pieces).2 ++ (Cleanup.feedAll .start pieces).1.close.2 := by
  rw [Cleanup.feedAll_start]
  rfl

end Build
end Atoll
