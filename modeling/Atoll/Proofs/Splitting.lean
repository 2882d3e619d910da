import Atoll.Proofs.Declarators
import Atoll.Proofs.Origin

/-!
# Splitting a script loses nothing and is done once

A script is split into statements after its comments have been taken out.  Which comments these are
is said here without the reader that takes them out, by the pieces that a script is made of.

* `Quotable`, `IsLiteral`, `Uncommented` — string literals, comments, and a script without its
  comments; `uncommented_iff` shows that `uncomment` gives just this.
* `isBare` — texts in which the reader meets no comment: taking comments out never makes a new one
  (`isBare_uncommentFrom`).
* `isWhole` — texts in which no statement ends; what is cut off as a statement is one
  (`exists_of_mem_cutStatements`), and stays one without the blanks around it (`isWhole_trim`).
* `statements_stable` — **hence a statement is split into itself**, and nothing but comments, blanks
  and semicolons is lost.
-/

set_option autoImplicit false

namespace Atoll
namespace Script

open Text

variable {s w cs body rest reversed : List Char} {c : Char} {n : Nesting}

/-! ## String literals and comments -/

/-- What may stand between the quotes of a literal: a backslash with any character behind it, and
characters that neither close the literal nor break it off. -/
inductive Quotable (quote : Char) : List Char → Prop where
  | nil : Quotable quote []
  | escape (c : Char) {s : List Char} (h : Quotable quote s) : Quotable quote ('\\' :: c :: s)
  | char {c : Char} {s : List Char} (hslash : c ≠ '\\') (hquote : c ≠ quote)
      (hline : c = '\n' → quote = '\x60') (h : Quotable quote s) : Quotable quote (c :: s)

/-- A string literal in front of the rest of a script. -/
inductive IsLiteral : List Char → List Char → Prop where
  | closed {quote : Char} {body : List Char} (hquote : isQuote quote = true)
      (hbody : Quotable quote body) (rest : List Char) : IsLiteral (quote :: (body ++ [quote])) rest
  /-- A line end breaks off a literal, except between backticks. -/
  | brokenOff {quote : Char} {body : List Char} (hquote : isQuote quote = true)
      (hline : quote ≠ '\x60') (hbody : Quotable quote body) (rest : List Char) :
      IsLiteral (quote :: body) ('\n' :: rest)
  /-- The end of the script ends a literal, also behind a backslash. -/
  | unclosed {quote : Char} {body last : List Char} (hquote : isQuote quote = true)
      (hbody : Quotable quote body) (hlast : last = [] ∨ last = ['\\']) :
      IsLiteral (quote :: (body ++ last)) []

/-- Whether a comment starts here. -/
def startsComment : List Char → Bool
  | '/' :: '/' :: _ => true
  | '/' :: '*' :: _ => true
  | _ => false

theorem startsComment_of_ne (h : c ≠ '/') (cs : List Char) : startsComment (c :: cs) = false := by
  rw [startsComment]
  · intro rest heq
    exact h (List.cons.inj heq).1
  · intro rest heq
    exact h (List.cons.inj heq).1

theorem startsComment_slash (h : c ≠ '/') (h' : c ≠ '*') (cs : List Char) :
    startsComment ('/' :: c :: cs) = false := by
  rw [startsComment]
  · intro rest heq
    exact h (List.cons.inj (List.cons.inj heq).2).1
  · intro rest heq
    exact h' (List.cons.inj (List.cons.inj heq).2).1

/-- A script, and the script without the comments that start outside its string literals. -/
inductive Uncommented : List Char → List Char → Prop where
  | nil : Uncommented [] []
  | literal {text rest bare : List Char} (htext : IsLiteral text rest) (h : Uncommented rest bare) :
      Uncommented (text ++ rest) (text ++ bare)
  /-- A comment up to the end of its line, which stays. -/
  | line {body rest bare : List Char} (hbody : '\n' ∉ body) (hend : ∀ c ∈ rest.head?, c = '\n')
      (h : Uncommented rest bare) : Uncommented ('/' :: '/' :: (body ++ rest)) bare
  /-- A comment up to its end mark. -/
  | block {body rest bare : List Char} (hbody : ¬['*', '/'] <:+: body) (h : Uncommented rest bare) :
      Uncommented ('/' :: '*' :: (body ++ '*' :: '/' :: rest)) bare
  | unended {body : List Char} (hbody : ¬['*', '/'] <:+: body) : Uncommented ('/' :: '*' :: body) []
  | other {c : Char} {rest bare : List Char} (hquote : isQuote c = false)
      (hcomment : startsComment (c :: rest) = false) (h : Uncommented rest bare) :
      Uncommented (c :: rest) (c :: bare)

/-! ## The reader takes them out -/

/-- Outside comments the reader keeps what it reads. -/
theorem uncommentFrom_cons {inside : Inside}
    (h : inside = .code → startsComment (c :: cs) = false) :
    uncommentFrom (.text inside) (c :: cs) = c :: uncommentFrom (.text (inside.next c)) cs := by
  rw [uncommentFrom]
  · rintro rest rfl rfl rfl
    cases h rfl
  · rintro rest rfl rfl rfl
    cases h rfl

theorem uncommentFrom_quotable {quote : Char} (h : Quotable quote body)
    (rest : List Char) : uncommentFrom (.text (.quoted quote)) (body ++ rest) =
      body ++ uncommentFrom (.text (.quoted quote)) rest := by
  induction h with
  | nil => rfl
  | escape c _ ih =>
    rw [List.cons_append, List.cons_append, uncommentFrom_cons (fun h => by cases h),
      uncommentFrom_cons (fun h => by cases h)]
    exact congrArg _ (congrArg _ ih)
  | @char c s hslash hquote hline _ ih =>
    have hnext : (Inside.quoted quote).next c = .quoted quote := by
      have hbreak : Inside.breaksOff quote c = false := by
        by_cases hc : c = '\n'
        · simp [Inside.breaksOff, hline hc]
        · simp [Inside.breaksOff, hc]
      simp [Inside.next, hslash, hquote, hbreak]
    rw [List.cons_append, uncommentFrom_cons (fun h => by cases h), hnext, ih]
    rfl

/-- A string literal is kept. -/
theorem uncommentFrom_literal {text : List Char} (h : IsLiteral text rest) :
    uncommentFrom (.text .code) (text ++ rest) = text ++ uncommentFrom (.text .code) rest := by
  have hopen : ∀ {quote : Char} (s : List Char), isQuote quote = true →
      uncommentFrom (.text .code) (quote :: s) =
        quote :: uncommentFrom (.text (.quoted quote)) s := by
    intro quote s hquote
    have hslash : quote ≠ '/' := by
      rintro rfl
      cases hquote
    have hnext : Inside.code.next quote = .quoted quote := by simp [Inside.next, hquote]
    rw [uncommentFrom_cons (fun _ => startsComment_of_ne hslash s), hnext]
  cases h with
  | @closed quote body hquote hbody rest =>
    have hslash : quote ≠ '\\' := by
      rintro rfl
      cases hquote
    have hnext : (Inside.quoted quote).next quote = .code := by simp [Inside.next, hslash]
    rw [List.cons_append, List.append_assoc, hopen _ hquote, uncommentFrom_quotable hbody,
      List.singleton_append, uncommentFrom_cons (fun h => by cases h), hnext]
    simp
  | @brokenOff quote body hquote hline hbody rest =>
    have hnext : (Inside.quoted quote).next '\n' = .code := by
      simp [Inside.next, Inside.breaksOff, hline]
    rw [List.cons_append, hopen _ hquote, uncommentFrom_quotable hbody,
      uncommentFrom_cons (fun h => by cases h), uncommentFrom_cons (fun _ => rfl), hnext]
    rfl
  | @unclosed quote body last hquote hbody hlast =>
    rw [List.append_nil, hopen _ hquote, uncommentFrom_quotable hbody]
    rcases hlast with rfl | rfl <;> simp [uncommentFrom]

theorem uncommentFrom_lineComment (hbody : '\n' ∉ body) (hend : ∀ c ∈ rest.head?, c = '\n') :
    uncommentFrom .lineComment (body ++ rest) = uncommentFrom (.text .code) rest := by
  induction body with
  | nil =>
    cases rest with
    | nil => rfl
    | cons c rest =>
      obtain rfl := hend c rfl
      rfl
  | cons c body ih =>
    rw [List.mem_cons, not_or] at hbody
    rw [List.cons_append, uncommentFrom, ih hbody.2]
    exact fun h => hbody.1 h.symm

/-- A comment with an end mark is passed over up to that mark. -/
theorem uncommentFrom_blockComment (hbody : ¬['*', '/'] <:+: body) :
    uncommentFrom .blockComment body = [] ∧
      ∀ rest, uncommentFrom .blockComment (body ++ '*' :: '/' :: rest) =
        uncommentFrom (.text .code) rest := by
  induction body with
  | nil => exact ⟨rfl, fun rest => rfl⟩
  | cons c body ih =>
    obtain ⟨hopen, hclosed⟩ := ih fun h => hbody (h.trans (List.suffix_cons c body).isInfix)
    have hstep : ∀ cs : List Char, ¬['*', '/'] <+: c :: cs →
        uncommentFrom .blockComment (c :: cs) = uncommentFrom .blockComment cs := by
      intro cs hcs
      rw [uncommentFrom]
      rintro rest rfl rfl
      exact hcs ⟨rest, rfl⟩
    have hnone : ¬['*', '/'] <+: c :: body := fun h => hbody h.isInfix
    refine ⟨by rw [hstep body hnone, hopen], fun rest => ?_⟩
    rw [List.cons_append, hstep _ ?_, hclosed]
    -- the end mark does not start with the last character of the comment
    rw [List.cons_prefix_cons] at hnone ⊢
    rintro ⟨hc, hmark⟩
    cases body with
    | nil =>
      rw [List.nil_append, List.cons_prefix_cons] at hmark
      exact absurd hmark.1 (by decide)
    | cons d body =>
      rw [List.cons_append, List.cons_prefix_cons] at hmark
      exact hnone ⟨hc, List.cons_prefix_cons.2 ⟨hmark.1, List.nil_prefix⟩⟩

theorem Uncommented.uncomment {bare : List Char} (h : Uncommented s bare) :
    Script.uncomment s = bare := by
  rw [Script.uncomment]
  induction h with
  | nil => rfl
  | literal htext _ ih => rw [uncommentFrom_literal htext, ih]
  | line hbody hend _ ih => exact (uncommentFrom_lineComment hbody hend).trans ih
  | block hbody _ ih => exact ((uncommentFrom_blockComment hbody).2 _).trans ih
  | unended hbody => exact (uncommentFrom_blockComment hbody).1
  | other hquote hcomment _ ih =>
    have hnext : ∀ c, isQuote c = false → Inside.code.next c = .code := by
      intro c hc
      simp [Inside.next, hc]
    rw [uncommentFrom_cons (fun _ => hcomment), hnext _ hquote, ih]

/-! ## Every script is made of such pieces -/

/-- A text up to where a literal ends. -/
theorem exists_quotable (quote : Char) (s : List Char) : ∃ body rest, s = body ++ rest ∧
    Quotable quote body ∧ (rest = [] ∨ rest = ['\\'] ∨ rest.head? = some quote ∨
      (rest.head? = some '\n' ∧ quote ≠ '\x60')) := by
  induction hlength : s.length using Nat.strong_induction_on generalizing s with
  | _ n ih =>
    cases s with
    | nil => exact ⟨[], [], rfl, .nil, .inl rfl⟩
    | cons c cs =>
      by_cases hquote : c = quote
      · exact ⟨[], c :: cs, rfl, .nil, .inr (.inr (.inl (by rw [hquote]; rfl)))⟩
      by_cases hslash : c = '\\'
      · subst hslash
        cases cs with
        | nil => exact ⟨[], ['\\'], rfl, .nil, .inr (.inl rfl)⟩
        | cons d ds =>
          obtain ⟨body, rest, rfl, hbody, hrest⟩ :=
            ih ds.length (by rw [← hlength]; simp) ds rfl
          exact ⟨'\\' :: d :: body, rest, rfl, .escape d hbody, hrest⟩
      by_cases hline : c = '\n' ∧ quote ≠ '\x60'
      · exact ⟨[], c :: cs, rfl, .nil, .inr (.inr (.inr ⟨by rw [hline.1]; rfl, hline.2⟩))⟩
      · obtain ⟨body, rest, rfl, hbody, hrest⟩ := ih cs.length (by rw [← hlength]; simp) cs rfl
        refine ⟨c :: body, rest, rfl, .char hslash hquote (fun hc => ?_) hbody, hrest⟩
        by_contra hnot
        exact hline ⟨hc, hnot⟩

theorem exists_isLiteral {quote : Char} (hquote : isQuote quote = true) (s : List Char) :
    ∃ text rest, quote :: s = text ++ rest ∧ text ≠ [] ∧ IsLiteral text rest := by
  obtain ⟨body, rest, rfl, hbody, rfl | rfl | hrest | ⟨hrest, hline⟩⟩ := exists_quotable quote s
  · exact ⟨_, [], by simp, List.cons_ne_nil _ _, .unclosed hquote hbody (.inl rfl)⟩
  · exact ⟨_, [], by simp, List.cons_ne_nil _ _, .unclosed hquote hbody (.inr rfl)⟩
  · obtain ⟨more, rfl⟩ := List.head?_eq_some_iff.1 hrest
    exact ⟨_, more, by simp, List.cons_ne_nil _ _, .closed hquote hbody more⟩
  · obtain ⟨more, rfl⟩ := List.head?_eq_some_iff.1 hrest
    exact ⟨_, _, rfl, List.cons_ne_nil _ _, .brokenOff hquote hline hbody more⟩

/-- A text up to its first end mark. -/
theorem exists_endMark (s : List Char) : ¬['*', '/'] <:+: s ∨
    ∃ body rest, s = body ++ '*' :: '/' :: rest ∧ ¬['*', '/'] <:+: body := by
  induction s with
  | nil => exact .inl fun h => absurd h.length_le (by decide)
  | cons c cs ih =>
    by_cases hmark : ['*', '/'] <+: c :: cs
    · obtain ⟨rest, hrest⟩ := hmark
      exact .inr ⟨[], rest, hrest.symm, fun h => absurd h.length_le (by decide)⟩
    · rcases ih with hnone | ⟨body, rest, rfl, hbody⟩
      · refine .inl fun h => ?_
        rcases List.infix_cons_iff.1 h with h | h
        · exact hmark h
        · exact hnone h
      · refine .inr ⟨c :: body, rest, rfl, fun h => ?_⟩
        rcases List.infix_cons_iff.1 h with h | h
        · exact hmark (h.trans ⟨'*' :: '/' :: rest, rfl⟩)
        · exact hbody h

theorem exists_uncommented (s : List Char) : ∃ bare, Uncommented s bare := by
  induction hlength : s.length using Nat.strong_induction_on generalizing s with
  | _ n ih =>
    have hless : ∀ t : List Char, t.length < s.length → ∃ bare, Uncommented t bare :=
      fun t ht => ih t.length (by omega) t rfl
    fun_cases startsComment s with
    | case1 cs =>
      have hsplit : cs = cs.takeWhile (· != '\n') ++ cs.dropWhile (· != '\n') :=
        List.takeWhile_append_dropWhile.symm
      have hend : ∀ c ∈ (cs.dropWhile (· != '\n')).head?, c = '\n' := by
        intro c hc
        have hhead := List.head?_dropWhile_not (· != '\n') cs
        rw [Option.mem_def.1 hc] at hhead
        simpa using hhead
      have hbody : '\n' ∉ cs.takeWhile (· != '\n') := by
        intro hmem
        exact absurd (List.all_eq_true.1 List.all_takeWhile _ hmem) (by decide)
      obtain ⟨bare, hbare⟩ := hless (cs.dropWhile (· != '\n')) (by
        have hle := (List.dropWhile_suffix (l := cs) (· != '\n')).length_le
        simp only [List.length_cons]
        omega)
      rw [hsplit]
      exact ⟨bare, .line hbody hend hbare⟩
    | case2 cs =>
      rcases exists_endMark cs with hnone | ⟨body, rest, rfl, hbody⟩
      · exact ⟨[], .unended hnone⟩
      · obtain ⟨bare, hbare⟩ := hless rest (by simp; omega)
        exact ⟨bare, .block hbody hbare⟩
    | case3 =>
      rename_i hline hblock
      have hcomment : startsComment s = false := by rw [startsComment] <;> assumption
      cases s with
      | nil => exact ⟨[], .nil⟩
      | cons c cs =>
        by_cases hquote : isQuote c = true
        · obtain ⟨text, rest, hsplit, hne, htext⟩ := exists_isLiteral hquote cs
          have hpos := List.length_pos_iff.2 hne
          rw [hsplit] at hless ⊢
          obtain ⟨bare, hbare⟩ := hless rest (by rw [List.length_append]; omega)
          exact ⟨text ++ bare, .literal htext hbare⟩
        · obtain ⟨bare, hbare⟩ := hless cs (by simp)
          exact ⟨c :: bare, .other (Bool.eq_false_of_not_eq_true hquote) hcomment hbare⟩

/-- **The reader takes out the comments of a script, and nothing else.** -/
theorem uncommented_iff {bare : List Char} : Uncommented s bare ↔ bare = uncomment s := by
  constructor
  · intro h
    exact h.uncomment.symm
  · rintro rfl
    obtain ⟨bare, hbare⟩ := exists_uncommented s
    rw [hbare.uncomment]
    exact hbare

/-! ## Texts without comments -/

/-- Whether the reader meets no comment in a text. -/
def isBare (inside : Inside) : List Char → Bool
  | [] => true
  | c :: cs => !(inside == .code && startsComment (c :: cs)) && isBare (inside.next c) cs

theorem isBare_cons {inside : Inside} :
    isBare inside (c :: cs) = true ↔
      (inside = .code → startsComment (c :: cs) = false) ∧ isBare (inside.next c) cs = true := by
  rw [isBare, Bool.and_eq_true, Bool.not_eq_true', Bool.and_eq_false_imp, beq_iff_eq]

theorem uncommentFrom_of_isBare {inside : Inside} (h : isBare inside s = true) :
    uncommentFrom (.text inside) s = s := by
  induction s generalizing inside with
  | nil => cases inside <;> rfl
  | cons c cs ih =>
    obtain ⟨hcomment, hcs⟩ := isBare_cons.1 h
    rw [uncommentFrom_cons hcomment, ih hcs]

/-- Where the reader stands with quotes in a region. -/
def Region.inside : Region → Inside
  | .text inside => inside
  | .lineComment => .code
  | .blockComment => .code

/-- **Taking comments out makes no new ones.**  A slash that is kept is not in front of a comment,
so what stands behind it stays there. -/
theorem isBare_uncommentFrom (r : Region) (s : List Char) :
    isBare r.inside (uncommentFrom r s) = true := by
  fun_induction uncommentFrom r s with
  | case1 cs ih => exact ih
  | case2 cs ih => exact ih
  | case3 inside c cs hline hblock ih =>
    refine isBare_cons.2 ⟨?_, ih⟩
    rintro rfl
    by_cases hc : c = '/'
    · subst hc
      cases cs with
      | nil => rfl
      | cons d ds =>
        have hd : d ≠ '/' := by
          rintro rfl
          exact hline ds rfl rfl rfl
        have hd' : d ≠ '*' := by
          rintro rfl
          exact hblock ds rfl rfl rfl
        have hnext : Inside.code.next '/' = .code := rfl
        rw [hnext, uncommentFrom_cons (fun _ => startsComment_of_ne hd ds)]
        exact startsComment_slash hd hd' _
    · exact startsComment_of_ne hc _
  | case4 cs ih => exact isBare_cons.2 ⟨fun _ => rfl, ih⟩
  | case5 c cs _ ih => exact ih
  | case6 cs ih => exact ih
  | case7 c cs _ ih => exact ih
  | case8 => rfl

theorem startsComment_of_append {t : List Char} (h : startsComment (s ++ t) = false) :
    startsComment s = false := by
  by_contra hs
  rw [Bool.not_eq_false] at hs
  fun_cases startsComment s with
  | case1 => cases h
  | case2 => cases h
  | case3 hline hblock =>
    rw [startsComment] at hs
    · cases hs
    · assumption
    · assumption

theorem isBare_append {inside : Inside} {t : List Char} (h : isBare inside (s ++ t) = true) :
    isBare inside s = true ∧ isBare (s.foldl Inside.next inside) t = true := by
  induction s generalizing inside with
  | nil => exact ⟨rfl, h⟩
  | cons c cs ih =>
    obtain ⟨hcomment, hcs⟩ := isBare_cons.1 h
    obtain ⟨hs, ht⟩ := ih hcs
    exact ⟨isBare_cons.2 ⟨fun hcode => startsComment_of_append (hcomment hcode), hs⟩, ht⟩

/-! ## Texts in which no statement ends -/

/-- Only the first character that is not blank says whether a statement goes on. -/
theorem goesOn_marked (n : Nesting) (s : List Char) :
    goesOn (marked n s) = (trimStart s).head?.any continuesBefore := by
  induction s generalizing n with
  | nil => rfl
  | cons c cs ih =>
    cases hc : isBlank c with
    | true =>
      have hmarked : goesOn (marked n (c :: cs)) = goesOn (marked (n.next c) cs) := by
        simp [goesOn, marked, hc]
      rw [hmarked, ih, trimStart, trimStart, List.dropWhile_cons_of_pos hc]
    | false =>
      rw [trimStart_of_head hc]
      simp [goesOn, marked, hc]

/-- Blanks in front of a statement do not finish it. -/
theorem isFinished_append (hw : ∀ c ∈ w, isBlank c = true) (reversed : List Char) :
    isFinished (reversed ++ w) = isFinished reversed := by
  by_cases hblank : ∀ c ∈ reversed, isBlank c = true
  · rw [isFinished, isFinished, List.dropWhile_eq_nil_iff.2 hblank,
      List.dropWhile_eq_nil_iff.2 (List.forall_mem_append.2 ⟨hblank, hw⟩)]
  · have hne : trimStart reversed ≠ [] := fun hnil => hblank (List.dropWhile_eq_nil_iff.1 hnil)
    have hdrop : (reversed ++ w).dropWhile isBlank = reversed.dropWhile isBlank ++ w :=
      (trimStart_append hne w).1
    -- two equal marks at the front stand there without the blanks, too
    have htwice : ∀ {c d : Char} {tail rest : List Char}, isBlank d = false →
        c :: (tail ++ w) = d :: d :: rest → c = d ∧ ∃ more, tail = d :: more := by
      intro c d tail rest hd heq
      obtain ⟨hc, htail⟩ := List.cons.inj heq
      refine ⟨hc, ?_⟩
      rcases tail with _ | ⟨e, more⟩
      · subst htail
        exact absurd rfl (ne_of_isBlank (hw d List.mem_cons_self) hd)
      · exact ⟨more, congrArg (· :: more) (List.cons.inj htail).1⟩
    fun_cases isFinished reversed with
    | case1 hnil => exact absurd hnil hne
    | case2 tail hs =>
      rw [isFinished, hdrop, hs]
      rfl
    | case3 tail hs =>
      rw [isFinished, hdrop, hs]
      rfl
    | case4 c tail hplus hminus hs =>
      rw [hs, List.cons_append] at hdrop
      fun_cases isFinished (reversed ++ w) with
      | case1 hnil => cases hdrop.symm.trans hnil
      | case2 rest hs' =>
        obtain ⟨hc, more, htail⟩ := htwice rfl (hdrop.symm.trans hs')
        exact (hplus more hc htail).elim
      | case3 rest hs' =>
        obtain ⟨hc, more, htail⟩ := htwice rfl (hdrop.symm.trans hs')
        exact (hminus more hc htail).elim
      | case4 d rest _ _ hs' => rw [(List.cons.inj (hdrop.symm.trans hs')).1]

/-- Whether no character of a text ends a statement.  `reversed` are the characters in front of the
text, the last one first, and `behind` is what follows it. -/
def isWhole (n : Nesting) (reversed behind : List Char) : List Char → Bool
  | [] => true
  | c :: cs =>
    !(n.atTop c && endsStatement reversed c (marked (n.next c) (cs ++ behind))) &&
      isWhole (n.next c) (c :: reversed) behind cs

theorem isWhole_append (n : Nesting) (reversed behind s t : List Char) :
    isWhole n reversed behind (s ++ t) =
      (isWhole n reversed (t ++ behind) s &&
        isWhole (n.after s) (s.reverse ++ reversed) behind t) := by
  induction s generalizing n reversed with
  | nil => rfl
  | cons c cs ih =>
    rw [List.cons_append, isWhole, isWhole, ih, List.append_assoc, Bool.and_assoc,
      List.reverse_cons, List.append_assoc, List.singleton_append]
    rfl

theorem cutStatements_of_isWhole (h : isWhole n reversed [] s = true) :
    cutStatements reversed (marked n s) = addStatement (s.reverse ++ reversed) [] := by
  induction s generalizing n reversed with
  | nil => rfl
  | cons c cs ih =>
    rw [isWhole, Bool.and_eq_true, Bool.not_eq_true', List.append_nil] at h
    rw [marked, cutStatements_cons, h.1, if_neg Bool.false_ne_true, ih h.2, List.reverse_cons,
      List.append_assoc, List.singleton_append]

theorem isWhole_blank (hw : ∀ c ∈ w, isBlank c = true) (n : Nesting)
    (reversed behind s : List Char) :
    isWhole n (reversed ++ w) behind s = isWhole n reversed behind s := by
  induction s generalizing n reversed with
  | nil => rfl
  | cons c cs ih =>
    rw [isWhole, isWhole, endsStatement, endsStatement, isFinished_append hw, ← List.cons_append,
      ih]

/-- What follows a text that does not end in blanks says nothing about it. -/
theorem isWhole_behind (hs : trimEnd s = s) {behind : List Char}
    (h : isWhole n reversed behind s = true) : isWhole n reversed [] s = true := by
  induction s generalizing n reversed with
  | nil => rfl
  | cons c cs ih =>
    rw [isWhole, Bool.and_eq_true, Bool.not_eq_true'] at h ⊢
    refine ⟨?_, ih (trimEnd_of_suffix (List.suffix_cons c cs) hs) h.2⟩
    rw [← h.1, List.append_nil]
    by_cases hline : c = '\n'
    · -- a line end is not the last character of the text
      have hne : trimStart cs ≠ [] := by
        intro hnil
        have hblank : allBlank (c :: cs) = true := by
          rw [allBlank, List.all_cons, hline, ← allBlank, trimStart_eq_nil.1 hnil]
          rfl
        rw [trimEnd_eq_nil.2 hblank] at hs
        cases hs
      have hgoes : goesOn (marked (n.next c) (cs ++ behind)) = goesOn (marked (n.next c) cs) := by
        rw [goesOn_marked, goesOn_marked, (trimStart_append hne behind).1,
          List.head?_append_of_ne_nil _ hne]
      rw [endsStatement, endsStatement, hgoes]
    · have hne : (c == '\n') = false := beq_eq_false_iff_ne.2 hline
      simp only [endsStatement, hne, Bool.false_and]

/-- Blanks leave the reader in code. -/
theorem after_blank (hw : ∀ c ∈ w, isBlank c = true) : Nesting.outermost.after w = .outermost :=
  Nesting.after_ordinary (fun c hc => isOrdinary_of_isBlank (hw c hc)) 0

/-- A text in which no statement ends stays one without the blanks around it. -/
theorem isWhole_trim {behind : List Char} (h : isWhole .outermost [] behind s = true) :
    isWhole .outermost [] [] (trim s) = true := by
  obtain ⟨lead, trail, hlead, -, hs⟩ := exists_trim_append s
  rw [hs, isWhole_append, after_blank hlead, List.append_nil, isWhole_append, Bool.and_eq_true,
    Bool.and_eq_true] at h
  have hinner := h.2.1
  rw [← List.nil_append lead.reverse,
    isWhole_blank fun c hc => hlead c (List.mem_reverse.1 hc)] at hinner
  exact isWhole_behind (trimEnd_trimEnd _) hinner

theorem isBare_trim (h : isBare .code s = true) : isBare .code (trim s) = true := by
  obtain ⟨lead, trail, hlead, -, hs⟩ := exists_trim_append s
  rw [hs] at h
  have hcode : lead.foldl Inside.next .code = .code := by
    rw [← show Nesting.outermost.inside = .code from rfl, ← Nesting.inside_after,
      after_blank hlead]
  have hinner := (isBare_append h).2
  rw [hcode] at hinner
  exact (isBare_append hinner).1

/-! ## The statements of a script -/

theorem mem_addStatement {st : List Char} {more : List (List Char)}
    (h : st ∈ addStatement reversed more) : (st = trim reversed.reverse ∧ st ≠ []) ∨ st ∈ more := by
  rw [addStatement] at h
  split at h
  · exact .inr h
  · rename_i hne
    rcases List.mem_cons.1 h with rfl | h
    · exact .inl ⟨rfl, by simpa using hne⟩
    · exact .inr h

/-- **What is cut off as a statement is a text in which no statement ends.**  The characters read
since the last cut are such a text in front of the rest of the script. -/
theorem exists_of_mem_cutStatements (reversed : List Char) {st : List Char}
    (hn : n = Nesting.outermost.after reversed.reverse)
    (hbare : isBare .code (reversed.reverse ++ rest) = true)
    (hwhole : isWhole .outermost [] rest reversed.reverse = true)
    (h : st ∈ cutStatements reversed (marked n rest)) :
    ∃ p behind, st = trim p ∧ st ≠ [] ∧ isBare .code p = true ∧
      isWhole .outermost [] behind p = true := by
  induction rest generalizing reversed n with
  | nil =>
    rw [List.append_nil] at hbare
    rcases mem_addStatement h with ⟨rfl, hne⟩ | h
    · exact ⟨_, [], rfl, hne, hbare, hwhole⟩
    · simp at h
  | cons c cs ih =>
    rw [marked, cutStatements_cons] at h
    split at h
    · rename_i hends
      obtain ⟨htop, hends⟩ := Bool.and_eq_true_iff.1 hends
      obtain ⟨hfront, hback⟩ := isBare_append hbare
      rcases mem_addStatement h with ⟨rfl, hne⟩ | h
      · exact ⟨_, c :: cs, rfl, hne, hfront, hwhole⟩
      · have hnext := next_of_endsStatement htop hends
        have hcode : (reversed.reverse.foldl Inside.next .code).next c = .code := by
          have hinside := congrArg Nesting.inside hnext
          rw [hn] at hinside
          rw [← show Nesting.outermost.inside = .code from rfl, ← Nesting.inside_after]
          exact hinside
        have hrest := (isBare_cons.1 hback).2
        rw [hcode] at hrest
        exact ih [] hnext hrest rfl h
    · rename_i hgo
      have hreverse : (c :: reversed).reverse = reversed.reverse ++ [c] := List.reverse_cons
      refine ih (c :: reversed) ?_ ?_ ?_ h
      · rw [hreverse, Nesting.after_append, ← hn]
        rfl
      · rw [hreverse, List.append_assoc]
        exact hbare
      · rw [hreverse, isWhole_append, Bool.and_eq_true]
        refine ⟨hwhole, ?_⟩
        rw [isWhole, isWhole, Bool.and_true, Bool.not_eq_true', ← hn, List.reverse_reverse,
          List.append_nil, List.nil_append]
        exact Bool.eq_false_of_not_eq_true hgo

theorem statements_of_mem {code s : String} (h : s ∈ statements code) : statements s = [s] := by
  obtain ⟨st, hst, rfl⟩ := List.mem_map.1 h
  obtain ⟨p, behind, rfl, hne, hbare, hwhole⟩ :=
    exists_of_mem_cutStatements [] rfl (isBare_uncommentFrom (.text .code) code.toList) rfl hst
  have hsame : uncomment (trim p) = trim p := uncommentFrom_of_isBare (isBare_trim hbare)
  have hempty : (trim p).isEmpty = false := by simpa using hne
  rw [statements, String.toList_ofList, hsame, topLevel,
    cutStatements_of_isWhole (isWhole_trim hwhole), addStatement, List.append_nil,
    List.reverse_reverse, trim_trim]
  simp [hempty]

/-- Nothing but gaps is between the statements. -/
theorem Cut.filter_flatten {ks : List Kept} {sts : List (List Kept)} (h : Cut ks sts) :
    sts.flatten.filter (fun k => !isGap k.char) = ks.filter fun k => !isGap k.char := by
  have hnone : ∀ {gap : List Kept}, (∀ k ∈ gap, isGap k.char = true) →
      gap.filter (fun k => !isGap k.char) = [] := by
    intro gap hgap
    exact List.filter_eq_nil_iff.2 fun k hk => by simp [hgap k hk]
  induction h with
  | done hgap => exact (hnone hgap).symm
  | more hgap _ _ ih =>
    rw [List.filter_append, hnone hgap, List.nil_append, List.flatten_cons, List.filter_append,
      List.filter_append, ih]

theorem filter_statements (code : String) :
    ((statements code).flatMap String.toList).filter (fun c => !isGap c) =
      (uncomment code.toList).filter fun c => !isGap c := by
  have hchars : (statements code).flatMap String.toList =
      Kept.chars (placedStatements 0 code.toList).flatten := by
    rw [← texts_placedStatements 0 code, List.flatMap_map, Kept.chars, List.map_flatten,
      List.flatMap_def]
    simp only [Kept.text, Kept.chars, String.toList_ofList]
  rw [hchars, uncomment, ← chars_keptFrom _ 0, Kept.chars, Kept.chars, List.filter_map,
    List.filter_map]
  exact congrArg _ (cut_placedStatements 0 code.toList).filter_flatten

/-- **Splitting a script loses nothing, and is done once.**  Each statement of a script is a script
of one statement, itself.  What the statements have besides blanks and semicolons is what the
script has besides them and its comments. -/
theorem statements_stable (code : String) :
    (∀ s ∈ statements code, statements s = [s]) ∧
      ∃ bare, (∀ t, Uncommented code.toList t ↔ t = bare) ∧
        ((statements code).flatMap String.toList).filter (fun c => !isGap c) =
          bare.filter fun c => !isGap c :=
  ⟨fun _ hs => statements_of_mem hs, uncomment code.toList, fun _ => uncommented_iff,
    filter_statements code⟩

/-- A script with comments, with a text that looks like one, and with a line that goes on. -/
theorem statements_stable_lines :
    "a = 'x // y' \n + 1" ∈ statements "a = 'x // y' // z;\n + 1 /* ; */\nb;;" ∧
      statements "a = 'x // y' \n + 1" = ["a = 'x // y' \n + 1"] := by
  have hmem : "a = 'x // y' \n + 1" ∈ statements "a = 'x // y' // z;\n + 1 /* ; */\nb;;" := by
    decide +kernel
  exact ⟨hmem, (statements_stable _).1 _ hmem⟩

end Script
end Atoll
