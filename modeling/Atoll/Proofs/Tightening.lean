import Atoll.Proofs.LineFilter

/-!
# Texts without blank lines inside

The filter of lines drops the blank ones.  Seen from a piece of a text, it drops the blank lines
inside the piece, and what becomes of the lines at its ends depends on what stands next to it.  This
file takes the filter apart at places where something is written.

* `tightened` — a text without the blank lines inside it.
* `tightened_append_ink`, `tightened_ink_append` — **texts are tightened apart from each other**
  where one of them starts or ends with a character that is not blank.
* `InkedEnds.tightened_around` — so is a text with such characters at both ends.
* `sifted_eq_trim_tightened` — the filter is tightening and trimming.
* `infix_tightened` — a mark on one line stays, and none comes up.
-/

set_option autoImplicit false

namespace Atoll
namespace Text

variable {c : Char} {l s mark : List Char}

/-! ## Texts without blank lines inside -/

/-- Lines without the blank ones, but for the last line. -/
def settled : List (List Char) → List (List Char)
  | [] => []
  | [l] => [l]
  | l :: m :: ls => if allBlank l then settled (m :: ls) else l :: settled (m :: ls)

/-- A text without the blank lines inside it.  Its first and its last line stay. -/
def tightened (s : List Char) : List Char :=
  joinLines ((lines s).take 1 ++ settled ((lines s).drop 1))

theorem settled_append (front : List (List Char)) {more : List (List Char)} (hmore : more ≠ []) :
    settled (front ++ more) = inked front ++ settled more := by
  induction front with
  | nil => rfl
  | cons m front ih =>
    obtain ⟨k, ks, hks⟩ :=
      List.exists_cons_of_ne_nil (List.append_ne_nil_of_right_ne_nil front hmore)
    rw [List.cons_append, hks, settled, ← hks, ih]
    cases hm : allBlank m with
    | true => rw [if_pos rfl, inked_cons_of_blank hm]
    | false => rw [if_neg Bool.false_ne_true, inked_cons_of_not hm, List.cons_append]

theorem settled_concat (front : List (List Char)) (l : List Char) :
    settled (front ++ [l]) = inked front ++ [l] :=
  settled_append front (List.cons_ne_nil l [])

/-- A line that is not blank parts the lines. -/
theorem settled_append_cons (front : List (List Char)) (hl : allBlank l = false)
    (more : List (List Char)) :
    settled (front ++ l :: more) = inked front ++ l :: settled more := by
  rw [settled_append front (List.cons_ne_nil l more)]
  cases more with
  | nil => rfl
  | cons m more =>
    rw [settled, hl]
    rfl

/-- Two joined lists of lines share a line where they meet. -/
theorem joinLines_append_joinLines (front : List (List Char)) (l m : List Char)
    (more : List (List Char)) :
    joinLines (front ++ [l]) ++ joinLines (m :: more) = joinLines (front ++ (l ++ m) :: more) := by
  induction front with
  | nil => rw [List.nil_append, List.nil_append, joinLines_singleton, joinLines_append_head]
  | cons k front ih =>
    have hleft : front ++ [l] ≠ [] := by simp
    have hright : front ++ (l ++ m) :: more ≠ [] := by simp
    rw [List.cons_append, List.cons_append, joinLines_cons _ hleft, joinLines_cons _ hright, ← ih,
      List.append_assoc, List.cons_append]

theorem tightened_append {t m : List Char} {front more : List (List Char)}
    (hs : lines s = front ++ [l]) (ht : lines t = m :: more)
    (h : front = [] ∨ allBlank (l ++ m) = false) :
    tightened (s ++ t) = tightened s ++ tightened t := by
  rw [tightened, tightened, tightened, lines_append_lines hs ht, hs, ht]
  cases front with
  | nil =>
    show joinLines ((l ++ m) :: settled more) = joinLines [l] ++ joinLines (m :: settled more)
    rw [joinLines_singleton, joinLines_append_head]
  | cons k front =>
    have hink := h.resolve_left (List.cons_ne_nil k front)
    show joinLines (k :: settled (front ++ (l ++ m) :: more)) =
      joinLines (k :: settled (front ++ [l])) ++ joinLines (m :: settled more)
    rw [settled_append_cons front hink, settled_concat, ← List.cons_append, ← List.cons_append,
      joinLines_append_joinLines]

theorem ne_newline_of_ink (hc : isBlank c = false) : c ≠ '\n' := by
  rintro rfl
  cases hc

/-- A text of one line stays as it is in front of another text. -/
theorem tightened_line_append (hs : '\n' ∉ s) (t : List Char) :
    tightened (s ++ t) = s ++ tightened t := by
  obtain ⟨m, more, ht⟩ := List.exists_cons_of_ne_nil (lines_ne_nil t)
  have hline : tightened s = s := by
    rw [tightened, lines_of_notMem hs]
    exact joinLines_singleton s
  have hlines : lines s = [] ++ [s] := lines_of_notMem hs
  rw [tightened_append hlines ht (.inl rfl), hline]

/-- What starts with ink is tightened on its own. -/
theorem tightened_append_ink (hc : isBlank c = false) (s t : List Char) :
    tightened (s ++ c :: t) = tightened s ++ tightened (c :: t) := by
  obtain ⟨front, l, hs⟩ := exists_lines_concat s
  obtain ⟨m, more, ht⟩ := List.exists_cons_of_ne_nil (lines_ne_nil t)
  refine tightened_append hs (lines_cons (ne_newline_of_ink hc) ht) (.inr ?_)
  simp [allBlank, hc]

/-- What ends with ink is tightened on its own. -/
theorem tightened_ink_append (hc : isBlank c = false) (s t : List Char) :
    tightened (s ++ [c] ++ t) = tightened (s ++ [c]) ++ tightened t := by
  obtain ⟨front, l, hs⟩ := exists_lines_concat s
  obtain ⟨m, more, ht⟩ := List.exists_cons_of_ne_nil (lines_ne_nil t)
  have hc' : lines [c] = [[c]] := lines_of_notMem (by simpa using (ne_newline_of_ink hc).symm)
  refine tightened_append (lines_append_lines hs hc') ht (.inr ?_)
  simp [allBlank, hc]

theorem tightened_append_line {t : List Char} (ht : '\n' ∉ t) (s : List Char) :
    tightened (s ++ t) = tightened s ++ t := by
  obtain ⟨front, l, hs⟩ := exists_lines_concat s
  rw [tightened, tightened, lines_append_lines hs (lines_of_notMem ht), hs]
  cases front with
  | nil =>
    rw [List.nil_append, List.nil_append]
    exact (joinLines_singleton _).trans (congrArg (· ++ t) (joinLines_singleton l).symm)
  | cons k front =>
    show joinLines (k :: settled (front ++ [l ++ t])) = joinLines (k :: settled (front ++ [l])) ++ t
    rw [settled_concat, settled_concat, ← List.cons_append, ← List.cons_append,
      joinLines_append_last]

theorem joinLines_concat {ls : List (List Char)} (h : ls ≠ []) (l : List Char) :
    joinLines (ls ++ [l]) = joinLines ls ++ '\n' :: l := by
  obtain ⟨front, m, rfl⟩ : ∃ front m, ls = front ++ [m] :=
    ⟨_, _, (List.dropLast_append_getLast h).symm⟩
  have hlast : joinLines ([] :: [l]) = '\n' :: l := by
    rw [joinLines_cons _ (List.cons_ne_nil _ _), joinLines_singleton, List.nil_append]
  rw [← hlast, joinLines_append_joinLines, List.append_nil, List.append_assoc]
  rfl

theorem trim_of_allBlank (h : allBlank s = true) : trim s = [] := by
  rw [trim, trimStart_eq_nil.2 h]
  rfl

/-- Blank lines at the ends do not matter. -/
theorem trim_joinLines_cons (hl : allBlank l = true) {ls : List (List Char)}
    (h : ls ≠ []) : trim (joinLines (l :: ls)) = trim (joinLines ls) := by
  rw [joinLines_cons l h, List.append_cons]
  refine trim_blank_append (fun c hc => ?_) _
  rcases List.mem_append.1 hc with hc | hc
  · exact List.all_eq_true.1 hl c hc
  · exact List.mem_singleton.1 hc ▸ rfl

theorem trim_joinLines_concat (hl : allBlank l = true) (ls : List (List Char)) :
    trim (joinLines (ls ++ [l])) = trim (joinLines ls) := by
  by_cases h : ls = []
  · rw [h, List.nil_append, joinLines_singleton, trim_of_allBlank hl]
    rfl
  · rw [joinLines_concat h]
    refine trim_append_blank (fun c hc => ?_) _
    rcases List.mem_cons.1 hc with rfl | hc
    · rfl
    · exact List.all_eq_true.1 hl c hc

/-- **Sifting is tightening and trimming.** -/
theorem sifted_eq_trim_tightened (s : List Char) : sifted s = trim (tightened s) := by
  obtain ⟨k, rest, hs⟩ := List.exists_cons_of_ne_nil (lines_ne_nil s)
  rw [sifted, tightened, hs]
  by_cases hrest : rest = []
  · rw [hrest]
    show trim (joinLines (inked [k])) = trim (joinLines [k])
    cases hk : allBlank k with
    | true =>
      rw [inked_cons_of_blank hk, joinLines_singleton, trim_of_allBlank hk]
      rfl
    | false =>
      rw [inked_cons_of_not hk]
      rfl
  · obtain ⟨front, l, rfl⟩ : ∃ front l, rest = front ++ [l] :=
      ⟨_, _, (List.dropLast_append_getLast hrest).symm⟩
    show trim (joinLines (inked (k :: (front ++ [l])))) =
      trim (joinLines (k :: settled (front ++ [l])))
    rw [settled_concat]
    have hlast : trim (joinLines (inked (k :: front) ++ inked [l])) =
        trim (joinLines (inked (k :: front) ++ [l])) := by
      cases hl : allBlank l with
      | true =>
        rw [inked_cons_of_blank hl, trim_joinLines_concat hl]
        exact congrArg (fun ls => trim (joinLines ls)) (List.append_nil _)
      | false =>
        rw [inked_cons_of_not hl]
        rfl
    rw [← List.cons_append, inked_append, hlast]
    cases hk : allBlank k with
    | true => rw [inked_cons_of_blank hk, trim_joinLines_cons hk (by simp)]
    | false => rw [inked_cons_of_not hk, List.cons_append]

/-! ## Marks in a text -/

/-- What has a character in it that a mark does not have has the mark before it or behind it. -/
theorem infix_append_cons (hc : c ∉ mark) (s t : List Char) :
    mark <:+: s ++ c :: t ↔ mark <:+: s ∨ mark <:+: t := by
  constructor
  · rintro ⟨p, q, h⟩
    rcases List.append_eq_append_iff.1 h with ⟨r, hs, -⟩ | ⟨r, hr, ht⟩
    · exact .inl ⟨p, r, hs.symm⟩
    · cases r with
      | nil =>
        rw [List.append_nil] at hr
        exact .inl ⟨p, [], by rw [List.append_nil, hr]⟩
      | cons d r =>
        obtain ⟨rfl, rfl⟩ := List.cons.inj ht
        rcases List.append_eq_append_iff.1 hr with ⟨x, -, hx⟩ | ⟨x, -, hx⟩
        · exact absurd (hx ▸ by simp) hc
        · cases x with
          | nil =>
            rw [List.nil_append] at hx
            exact absurd (hx ▸ List.mem_cons_self) hc
          | cons e x =>
            obtain ⟨rfl, rfl⟩ := List.cons.inj hx
            exact .inr ⟨x, q, rfl⟩
  · rintro (h | h)
    · exact h.trans (List.prefix_append s _).isInfix
    · exact h.trans ((List.suffix_cons c t).trans (List.suffix_append s _)).isInfix

theorem infix_joinLines (hne : mark ≠ []) (hmark : '\n' ∉ mark)
    (ls : List (List Char)) : mark <:+: joinLines ls ↔ ∃ l ∈ ls, mark <:+: l := by
  induction ls with
  | nil => simpa [joinLines] using hne
  | cons l ls ih =>
    by_cases h : ls = []
    · simp [h, joinLines_singleton]
    · rw [joinLines_cons l h, infix_append_cons hmark, ih]
      simp

theorem mem_settled_of_ink (hl : allBlank l = false) (ls : List (List Char)) :
    l ∈ settled ls ↔ l ∈ ls := by
  by_cases h : ls = []
  · rw [h]
    rfl
  · obtain ⟨front, m, rfl⟩ : ∃ front m, ls = front ++ [m] :=
      ⟨_, _, (List.dropLast_append_getLast h).symm⟩
    rw [settled_concat, List.mem_append, List.mem_append, inked, List.mem_filter]
    simp [hl]

/-- Marks stay when blank lines are dropped. -/
theorem infix_tightened (hink : allBlank mark = false) (hmark : '\n' ∉ mark)
    (s : List Char) : mark <:+: tightened s ↔ mark <:+: s := by
  have hne : mark ≠ [] := by
    rintro rfl
    cases hink
  have hline {l : List Char} (h : mark <:+: l) : allBlank l = false := by
    rw [← Bool.not_eq_true]
    intro hblank
    refine absurd (List.all_eq_true.2 fun c hc => ?_) (Bool.eq_false_iff.1 hink)
    exact List.all_eq_true.1 hblank c (h.subset hc)
  have hmem {l : List Char} (h : allBlank l = false) :
      l ∈ (lines s).take 1 ++ settled ((lines s).drop 1) ↔ l ∈ lines s := by
    rw [List.mem_append, mem_settled_of_ink h, ← List.mem_append, List.take_append_drop]
  have hlines : mark <:+: s ↔ ∃ l ∈ lines s, mark <:+: l := by
    rw [← infix_joinLines hne hmark, joinLines_lines]
  rw [tightened, infix_joinLines hne hmark, hlines]
  constructor
  · rintro ⟨l, hl, h⟩
    exact ⟨l, (hmem (hline h)).1 hl, h⟩
  · rintro ⟨l, hl, h⟩
    exact ⟨l, (hmem (hline h)).2 hl, h⟩

/-! ## Texts with ink at both ends -/

theorem trimStart_append_ink (hc : isBlank c = false) (s t : List Char) :
    trimStart (s ++ c :: t) = trimStart s ++ c :: t := by
  rw [trimStart, trimStart, List.dropWhile_append, List.dropWhile_cons_of_neg (by simp [hc])]
  split
  · rename_i hempty
    rw [List.isEmpty_iff.1 hempty, List.nil_append]
  · rfl

theorem trimEnd_ink_append (hc : isBlank c = false) (s t : List Char) :
    trimEnd (s ++ c :: t) = s ++ c :: trimEnd t := by
  have hreverse : (s ++ c :: t).reverse = t.reverse ++ c :: s.reverse := by simp
  have hstart := trimStart_append_ink hc t.reverse s.reverse
  rw [trimStart, trimStart] at hstart
  rw [trimEnd, hreverse, hstart, trimEnd]
  simp

/-- A text that starts and ends with characters that are not blank. -/
structure InkedEnds (p : List Char) : Prop where
  first : ∃ c body, isBlank c = false ∧ p = c :: body
  last : ∃ body c, isBlank c = false ∧ p = body ++ [c]

namespace InkedEnds

variable {p : List Char} (h : InkedEnds p) (s t : List Char)
include h

/-- **Such a text is tightened on its own**, and so is everything before it and behind it. -/
theorem tightened_around :
    tightened (s ++ p ++ t) = tightened s ++ tightened p ++ tightened t := by
  obtain ⟨body, d, hd, hlast⟩ := h.last
  rw [hlast, ← List.append_assoc, tightened_ink_append hd, List.append_assoc s, ← hlast]
  obtain ⟨c, rest, hc, hfirst⟩ := h.first
  rw [hfirst, tightened_append_ink hc]

theorem trimStart_around : trimStart (s ++ p ++ t) = trimStart s ++ p ++ t := by
  obtain ⟨c, rest, hc, rfl⟩ := h.first
  rw [List.append_assoc, List.cons_append, trimStart_append_ink hc, List.append_assoc,
    List.cons_append]

theorem trimEnd_around : trimEnd (s ++ p ++ t) = s ++ p ++ trimEnd t := by
  obtain ⟨body, d, hd, rfl⟩ := h.last
  rw [← List.append_assoc, List.append_assoc _ [d] t, List.singleton_append, trimEnd_ink_append hd,
    List.append_assoc _ [d], List.singleton_append]

end InkedEnds

end Text
end Atoll
