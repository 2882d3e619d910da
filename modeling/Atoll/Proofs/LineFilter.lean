import Atoll.Proofs.Blanks
import Atoll.Proofs.Cleanup

/-!
# The cleanup is a filter of lines

What a `Build.Cleanup` makes of a text can be said without its state: the lines that are not blank,
joined and trimmed, with one newline behind them.  This file shows that a cleanup does just that, in
whatever pieces it is fed and however often it is closed and used again.

* `Text.sift` — the filter of lines.
* `Text.sifted_append_blank`, `Text.sifted_blank_append` — blanks around a text do not matter to it;
  hence `Text.sift_sift`: **a sifted text stays as it is.**
* `Cleanup.takeLines_some`, `Cleanup.takeLines_none` — the lines that have been let go and the one
  that is held back are the lines kept so far.
* `tidy_eq_sift` — a fresh cleanup that is fed a text and closed gives the sifted text.
* `Cleanup.outputs_between_closes` — **so it does between any two closes**, as it does not see where
  its input is cut and is fresh again when it has been closed.
-/

set_option autoImplicit false

namespace Atoll
namespace Text

variable {s l : List Char} {ls more : List (List Char)} {c : Char}

/-! ## Lines -/

/-- Lines with newlines between them. -/
def joinLines (ls : List (List Char)) : List Char :=
  ['\n'].intercalate ls

theorem joinLines_singleton (l : List Char) : joinLines [l] = l := by
  simp [joinLines]

theorem joinLines_cons (l : List Char) (h : ls ≠ []) :
    joinLines (l :: ls) = l ++ '\n' :: joinLines ls := by
  obtain ⟨m, ms, rfl⟩ := List.exists_cons_of_ne_nil h
  simp [joinLines]

/-- What stands in front of the first line stands in front of all lines. -/
theorem joinLines_append_head (w l : List Char) (ls : List (List Char)) :
    joinLines ((w ++ l) :: ls) = w ++ joinLines (l :: ls) := by
  by_cases h : ls = []
  · subst h
    rw [joinLines_singleton, joinLines_singleton]
  · rw [joinLines_cons _ h, joinLines_cons _ h, List.append_assoc]

/-- What stands behind the last line stands behind all lines. -/
theorem joinLines_append_last (ls : List (List Char)) (l w : List Char) :
    joinLines (ls ++ [l ++ w]) = joinLines (ls ++ [l]) ++ w := by
  induction ls with
  | nil => rw [List.nil_append, List.nil_append, joinLines_singleton, joinLines_singleton]
  | cons m ms ih =>
    rw [List.cons_append, List.cons_append, joinLines_cons _ (by simp), joinLines_cons _ (by simp),
      ih, List.append_assoc, List.cons_append]

theorem lines_ne_nil (s : List Char) : lines s ≠ [] :=
  cutWhere_ne_nil _ s

theorem lines_newline (s : List Char) : lines ('\n' :: s) = [] :: lines s :=
  cutWhere_cons_of_cut s rfl

theorem lines_cons (hc : c ≠ '\n') (h : lines s = l :: more) : lines (c :: s) = (c :: l) :: more :=
  cutWhere_cons_of_not (by simpa using hc) h

/-- A line in front of a newline is cut off there. -/
theorem lines_append_newline (hl : '\n' ∉ l) (s : List Char) :
    lines (l ++ '\n' :: s) = l :: lines s := by
  induction l with
  | nil => exact lines_newline s
  | cons c cs ih =>
    rw [List.mem_cons, not_or] at hl
    exact lines_cons (Ne.symm hl.1) (ih hl.2)

/-- A text without newlines is one line. -/
theorem lines_of_notMem (hl : '\n' ∉ l) : lines l = [l] := by
  induction l with
  | nil => rfl
  | cons c cs ih =>
    rw [List.mem_cons, not_or] at hl
    exact lines_cons (Ne.symm hl.1) (ih hl.2)

/-- No line has a newline in it. -/
theorem notMem_of_mem_lines (h : l ∈ lines s) : '\n' ∉ l := by
  induction s generalizing l with
  | nil =>
    obtain rfl : l = [] := List.mem_singleton.1 h
    exact List.not_mem_nil
  | cons c cs ih =>
    by_cases hc : c = '\n'
    · rw [hc, lines_newline] at h
      rcases List.mem_cons.1 h with rfl | h
      · exact List.not_mem_nil
      · exact ih h
    · obtain ⟨first, more, hcs⟩ := List.exists_cons_of_ne_nil (lines_ne_nil cs)
      rw [lines_cons hc hcs] at h
      rw [hcs] at ih
      rcases List.mem_cons.1 h with rfl | h
      · rw [List.mem_cons, not_or]
        exact ⟨Ne.symm hc, ih (.head _)⟩
      · exact ih (.tail _ h)

/-- **Joined lines are cut where they were joined.** -/
theorem lines_joinLines (hne : ls ≠ []) (hls : ∀ l ∈ ls, '\n' ∉ l) : lines (joinLines ls) = ls := by
  induction ls with
  | nil => exact absurd rfl hne
  | cons l ls ih =>
    obtain ⟨hl, hls⟩ := List.forall_mem_cons.1 hls
    by_cases h : ls = []
    · rw [h, joinLines_singleton, lines_of_notMem hl]
    · rw [joinLines_cons l h, lines_append_newline hl, ih h hls]

/-- The lines of a text make it up. -/
theorem joinLines_lines (s : List Char) : joinLines (lines s) = s := by
  induction s with
  | nil => rfl
  | cons c cs ih =>
    by_cases hc : c = '\n'
    · rw [hc, lines_newline, joinLines_cons [] (lines_ne_nil cs), ih]
      rfl
    · obtain ⟨l, more, hcs⟩ := List.exists_cons_of_ne_nil (lines_ne_nil cs)
      rw [hcs] at ih
      rw [lines_cons hc hcs, ← ih]
      exact joinLines_append_head [c] l more

/-- What stands in front of the first newline belongs to the first line. -/
theorem lines_append (hl : '\n' ∉ l) {first : List Char} (h : lines s = first :: more) :
    lines (l ++ s) = (l ++ first) :: more := by
  induction l with
  | nil => exact h
  | cons c cs ih =>
    rw [List.mem_cons, not_or] at hl
    exact lines_cons (Ne.symm hl.1) (ih hl.2)

theorem exists_lines_concat (s : List Char) : ∃ front l, lines s = front ++ [l] :=
  ⟨_, _, (List.dropLast_append_getLast (lines_ne_nil s)).symm⟩

/-- The lines of two texts in a row. -/
theorem lines_append_lines {t m : List Char} {front : List (List Char)}
    (hs : lines s = front ++ [l]) (ht : lines t = m :: more) :
    lines (s ++ t) = front ++ (l ++ m) :: more := by
  have hl : '\n' ∉ l := notMem_of_mem_lines (s := s) (by simp [hs])
  have happend := cutWhere_append (· == '\n') s t
  simp only [← lines.eq_1, hs, List.dropLast_concat, List.getLast?_concat, Option.getD_some]
    at happend
  rw [happend, lines_append hl ht]

/-! ## Sifting a text -/

/-- The lines that are not blank. -/
def inked (ls : List (List Char)) : List (List Char) :=
  ls.filter fun l => !allBlank l

theorem inked_cons_of_blank (h : allBlank l = true) (ls : List (List Char)) :
    inked (l :: ls) = inked ls := by
  simp [inked, h]

theorem inked_cons_of_not (h : allBlank l = false) (ls : List (List Char)) :
    inked (l :: ls) = l :: inked ls := by
  simp [inked, h]

theorem inked_append (ls ms : List (List Char)) : inked (ls ++ ms) = inked ls ++ inked ms :=
  List.filter_append ..

/-- The lines of a text that are not blank, without blanks around the whole. -/
def sifted (s : List Char) : List Char :=
  trim (joinLines (inked (lines s)))

/-- The lines of a text that are not blank, without blanks around the whole, and one newline at the
end. -/
def sift (text : String) : String :=
  String.ofList (sifted text.toList ++ ['\n'])

theorem sifted_cons_blank (hc : isBlank c = true) (s : List Char) : sifted (c :: s) = sifted s := by
  by_cases hnewline : c = '\n'
  · rw [sifted, hnewline, lines_newline, inked_cons_of_blank rfl, sifted]
  · obtain ⟨l, more, hs⟩ := List.exists_cons_of_ne_nil (lines_ne_nil s)
    have hblank : allBlank (c :: l) = allBlank l := by simp [allBlank, hc]
    rw [sifted, sifted, lines_cons hnewline hs, hs]
    cases hl : allBlank l with
    | true => rw [inked_cons_of_blank (hblank.trans hl), inked_cons_of_blank hl]
    | false =>
      rw [inked_cons_of_not (hblank.trans hl), inked_cons_of_not hl]
      exact (congrArg trim (joinLines_append_head [c] l _)).trans
        (trim_blank_append (by simpa using hc) _)

theorem sifted_concat_blank (hc : isBlank c = true) (s : List Char) :
    sifted (s ++ [c]) = sifted s := by
  obtain ⟨front, l, hs⟩ := exists_lines_concat s
  by_cases hnewline : c = '\n'
  · have hlines : lines (s ++ [c]) = front ++ [l ++ [], []] :=
      lines_append_lines hs (hnewline ▸ rfl)
    rw [sifted, sifted, hlines, hs, inked_append, inked_append, List.append_nil]
    cases hink : allBlank l with
    | true =>
      rw [inked_cons_of_blank hink, inked_cons_of_blank hink]
      rfl
    | false =>
      rw [inked_cons_of_not hink, inked_cons_of_not hink]
      rfl
  · have hlines : lines (s ++ [c]) = front ++ [l ++ [c]] :=
      lines_append_lines hs (lines_of_notMem (by simpa using Ne.symm hnewline))
    have hblank : allBlank (l ++ [c]) = allBlank l := by simp [allBlank, hc]
    rw [sifted, sifted, hlines, hs, inked_append, inked_append]
    cases hink : allBlank l with
    | true => rw [inked_cons_of_blank (hblank.trans hink), inked_cons_of_blank hink]
    | false =>
      rw [inked_cons_of_not (hblank.trans hink), inked_cons_of_not hink]
      exact (congrArg trim (joinLines_append_last _ l [c])).trans
        (trim_append_blank (by simpa using hc) _)

/-- Blanks in front of a text do not matter. -/
theorem sifted_blank_append {w : List Char} (hw : ∀ c ∈ w, isBlank c = true) (s : List Char) :
    sifted (w ++ s) = sifted s := by
  induction w with
  | nil => rfl
  | cons c cs ih =>
    obtain ⟨hc, hcs⟩ := List.forall_mem_cons.1 hw
    rw [List.cons_append, sifted_cons_blank hc, ih hcs]

/-- Blanks behind a text do not matter. -/
theorem sifted_append_blank {w : List Char} (hw : ∀ c ∈ w, isBlank c = true) (s : List Char) :
    sifted (s ++ w) = sifted s := by
  induction w generalizing s with
  | nil => rw [List.append_nil]
  | cons c cs ih =>
    obtain ⟨hc, hcs⟩ := List.forall_mem_cons.1 hw
    rw [List.append_cons, ih hcs, sifted_concat_blank hc]

/-- Lines that are not blank are all kept. -/
theorem inked_lines_joinLines (hls : ∀ l ∈ ls, '\n' ∉ l) :
    inked (lines (joinLines (inked ls))) = inked ls := by
  by_cases hne : inked ls = []
  · rw [hne]
    rfl
  · rw [lines_joinLines hne fun l hl => hls l (List.mem_of_mem_filter hl), inked, inked,
      List.filter_filter]
    simp only [Bool.and_self]

/-- **A sifted text stays as it is.** -/
theorem sift_sift (text : String) : sift (sift text) = sift text := by
  have hstays : sifted (sifted text.toList ++ ['\n']) = sifted text.toList := by
    obtain ⟨v, w, hv, hw, hsplit⟩ := exists_trim_append (joinLines (inked (lines text.toList)))
    calc sifted (sifted text.toList ++ ['\n'])
        = sifted (sifted text.toList) := sifted_append_blank (List.forall_mem_singleton.2 rfl) _
      _ = sifted (v ++ (sifted text.toList ++ w)) := by
        rw [sifted_blank_append hv, sifted_append_blank hw]
      _ = sifted (joinLines (inked (lines text.toList))) := congrArg sifted hsplit.symm
      _ = sifted text.toList := by
        rw [sifted, inked_lines_joinLines fun l => notMem_of_mem_lines, sifted]
  rw [sift, sift, String.toList_ofList, hstays]

end Text

namespace Build

open Text

/-! ## What a cleanup holds -/

namespace Cleanup

/-- While a line is held back, what has been let go and that line are the lines kept so far. -/
theorem takeLines_some (held : List Char) (ls : List (List Char)) (hheld : allBlank held = false) :
    ∃ last, (takeLines (some held) ls).1 = some last ∧ allBlank last = false ∧
      (takeLines (some held) ls).2 ++ last = joinLines (held :: inked ls) := by
  induction ls generalizing held with
  | nil => exact ⟨held, rfl, hheld, (joinLines_singleton held).symm⟩
  | cons l ls ih =>
    cases hl : allBlank l with
    | true =>
      rw [takeLines, takeLine, if_pos hl, inked_cons_of_blank hl]
      exact ih held hheld
    | false =>
      obtain ⟨last, hlast, hink, hjoin⟩ := ih l hl
      rw [takeLines, takeLine, if_neg (by simp [hl]), inked_cons_of_not hl]
      refine ⟨last, hlast, hink, ?_⟩
      rw [joinLines_cons held (by simp), ← hjoin]
      simp

/-- Before any line is held back only blank lines have come.  The first other line loses its leading
blanks. -/
theorem takeLines_none (ls : List (List Char)) :
    takeLines none ls = (none, []) ∧ inked ls = [] ∨
      ∃ last, (takeLines none ls).1 = some last ∧ allBlank last = false ∧
        (takeLines none ls).2 ++ last = trimStart (joinLines (inked ls)) := by
  induction ls with
  | nil => exact .inl ⟨rfl, rfl⟩
  | cons l ls ih =>
    cases hl : allBlank l with
    | true =>
      rw [takeLines, takeLine, if_pos hl, inked_cons_of_blank hl]
      exact ih
    | false =>
      have hink : allBlank (trimStart l) = false := (allBlank_trimStart l).trans hl
      obtain ⟨last, hlast, hlastInk, hjoin⟩ := takeLines_some (trimStart l) ls hink
      rw [takeLines, takeLine, if_neg (by simp [hl]), inked_cons_of_not hl]
      refine .inr ⟨last, hlast, hlastInk, ?_⟩
      have hall : joinLines (l :: inked ls) = l ++ (joinLines ([] :: inked ls)) := by
        simpa using joinLines_append_head l [] (inked ls)
      have hstart : trimStart l ≠ [] := by simp [trimStart_eq_nil, hl]
      rw [hall, (trimStart_append hstart _).1, ← joinLines_append_head, List.append_nil, ← hjoin]
      simp

end Cleanup

/-- Closing takes the incomplete line like a complete one. -/
theorem tidy_eq_takeLines (text : String) :
    tidy text = String.ofList ((Cleanup.takeLines none (lines text.toList)).2 ++
      trimEnd ((Cleanup.takeLines none (lines text.toList)).1.getD []) ++ ['\n']) := by
  obtain ⟨front, last, hlines⟩ := exists_lines_concat text.toList
  rw [tidy, Cleanup.feed_eq, Cleanup.start, List.nil_append, hlines, Cleanup.takeLines_append]
  simp only [Cleanup.close, Cleanup.takeLines, List.dropLast_concat, List.getLast?_concat,
    Option.getD_some, ← String.toList_inj, String.toList_append, String.toList_ofList]
  cases (Cleanup.takeLine (Cleanup.takeLines none front).1 last).1 <;> simp [trimEnd]

/-- **A fresh cleanup that is fed a text and closed gives the sifted text.** -/
theorem tidy_eq_sift (text : String) : tidy text = sift text := by
  rw [tidy_eq_takeLines, sift]
  refine congrArg (fun cs => String.ofList (cs ++ ['\n'])) ?_
  rcases Cleanup.takeLines_none (lines text.toList) with ⟨hnone, hink⟩ | ⟨last, hlast, hink, hjoin⟩
  · rw [hnone, sifted, hink]
    rfl
  · have hend : trimEnd last ≠ [] := by simp [trimEnd_eq_nil, hink]
    rw [hlast, Option.getD_some, ← trimEnd_append hend, hjoin, sifted, trim]

/-! ## Sequences of calls -/

namespace Cleanup

/-- A call of a cleanup. -/
inductive Call where
  | feed (piece : String)
  | close
  deriving DecidableEq, Repr

/-- What a call leaves, and what it gives. -/
def call (c : Cleanup) : Call → Cleanup × String
  | .feed piece => c.feed piece
  | .close => c.close

/-- Calls one after the other: what they leave in the end, and what each of them gives. -/
def calls (c : Cleanup) : List Call → Cleanup × List String
  | [] => (c, [])
  | x :: xs => ((calls (c.call x).1 xs).1, (c.call x).2 :: (calls (c.call x).1 xs).2)

theorem calls_append (c : Cleanup) (xs ys : List Call) :
    c.calls (xs ++ ys) =
      (((c.calls xs).1.calls ys).1, (c.calls xs).2 ++ ((c.calls xs).1.calls ys).2) := by
  induction xs generalizing c with
  | nil => rfl
  | cons x xs ih => simp [calls, ih]

theorem length_calls (c : Cleanup) (xs : List Call) : (c.calls xs).2.length = xs.length := by
  induction xs generalizing c with
  | nil => rfl
  | cons x xs ih => simp [calls, ih]

/-- Calls that only feed give what feeding the pieces gives. -/
theorem calls_feed (c : Cleanup) (pieces : List String) :
    (c.calls (pieces.map Call.feed)).1 = (c.feedAll pieces).1 ∧
      String.join (c.calls (pieces.map Call.feed)).2 = (c.feedAll pieces).2 := by
  induction pieces generalizing c with
  | nil => exact ⟨rfl, rfl⟩
  | cons piece pieces ih =>
    obtain ⟨hstate, hout⟩ := ih (c.feed piece).1
    exact ⟨hstate, by rw [List.map_cons, calls, String.join_cons, call, hout, feedAll]⟩

/-- **A cleanup that has been closed is fresh**, whatever came before. -/
theorem calls_close (c : Cleanup) (xs : List Call) : (c.calls (xs ++ [Call.close])).1 = start := by
  rw [calls_append]
  rfl

theorem calls_fresh {xs : List Call} (h : xs = [] ∨ xs.getLast? = some Call.close) :
    (start.calls xs).1 = start := by
  rcases h with rfl | h
  · rfl
  · obtain ⟨ys, rfl⟩ := List.getLast?_eq_some_iff.1 h
    exact calls_close start ys

/-- What a fresh cleanup gives up to the next close. -/
theorem join_calls_start (pieces : List String) :
    String.join (start.calls (pieces.map Call.feed ++ [Call.close])).2 =
      sift (String.join pieces) := by
  obtain ⟨hstate, hout⟩ := calls_feed start pieces
  rw [calls_append, String.join_append, hout, hstate, ← tidy_eq_sift, tidy_join]
  simp [calls, call]

/-- **The cleanup is a filter of lines, however it is fed.**  In any sequence of calls, what the
calls behind one close give up to the next one is the sifted text of what they were fed, the next
close leaves the cleanup fresh, and sifting a text once more does not change it. -/
theorem outputs_between_closes (before later : List Call)
    (hbefore : before = [] ∨ before.getLast? = some Call.close) (pieces : List String) :
    let session := pieces.map Call.feed ++ [Call.close]
    (start.calls (before ++ session)).1 = start ∧
      String.join (((start.calls (before ++ session ++ later)).2.drop before.length).take
        session.length) = sift (String.join pieces) ∧
      ∀ text, sift (sift text) = sift text := by
  intro session
  have hfresh := calls_fresh hbefore
  refine ⟨?_, ?_, sift_sift⟩
  · rw [← List.append_assoc]
    exact calls_close start _
  · have houtputs : ((start.calls (before ++ session ++ later)).2.drop before.length).take
        session.length = (start.calls session).2 := by
      rw [List.append_assoc, calls_append, hfresh, calls_append,
        List.drop_left' (length_calls start before), List.take_left' (length_calls start session)]
    rw [houtputs]
    exact join_calls_start pieces

/-- Pieces cut inside blanks and newlines, in a cleanup that is used for the second time. -/
theorem outputs_between_closes_reused :
    [Call.feed " x", .close].getLast? = some Call.close ∧
    String.join (((start.calls ([Call.feed " x", .close] ++
      ([" \n  a ", "\n \t", "\n\n b", "  \n "].map Call.feed ++ [Call.close]) ++
        [Call.feed "c"])).2.drop 2).take 5) = sift " \n  a \n \t\n\n b  \n " ∧
    sift " \n  a \n \t\n\n b  \n " = "a \n b\n" := by
  refine ⟨rfl, ?_, by decide⟩
  exact (outputs_between_closes [Call.feed " x", .close] [Call.feed "c"] (.inr rfl)
    [" \n  a ", "\n \t", "\n\n b", "  \n "]).2.1

end Cleanup
end Build
end Atoll
