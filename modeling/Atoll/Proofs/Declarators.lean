import Atoll.Proofs.Declaring

/-!
# Declarators are read back from their text

A declaration is written once more from its declarators, without types and with single blanks.
Reading that text gives the same declarators, because each of them ends where it was read to end.

* `Nesting.after`, `topComma_cases` — where the reader stands behind a text, and what is in front of
  the first comma that it finds.
* `ReadsPattern`, `patternLength_cases` — a pattern is read the same whatever comes behind it.
* `Settled` — declarators that are read back from their text: `settled_declaratorsFrom` and
  `Settled.declarators_textOf`.
* `declarators_declarators` — **what declares is declared by its own text**, if the quotes of its
  values are closed.
-/

set_option autoImplicit false

namespace Atoll

namespace Text

/-! ## Blanks at the ends of a text -/

theorem trimEnd_concat {c : Char} (hc : isBlank c = false) (s : List Char) :
    trimEnd (s ++ [c]) = s ++ [c] := by
  simp [trimEnd, hc]

/-- What ends a text that ends without blanks ends without blanks. -/
theorem trimEnd_of_suffix {s t : List Char} (ht : t <:+ s) (hs : trimEnd s = s) :
    trimEnd t = t := by
  rcases List.eq_nil_or_concat' t with rfl | ⟨u, c, rfl⟩
  · rfl
  · obtain ⟨v, rfl⟩ := ht
    refine trimEnd_concat (Bool.eq_false_of_not_eq_true fun hc => ?_) u
    rw [← List.append_assoc, trimEnd_append_blank (by simpa using hc)] at hs
    -- the text without its blanks would be longer than the text without its last character
    obtain ⟨w, -, hsplit⟩ := exists_trimEnd_append (v ++ u)
    rw [hs] at hsplit
    have hlength := congrArg List.length hsplit
    simp only [List.length_append, List.length_singleton] at hlength
    omega

theorem trimStart_suffix (s : List Char) : trimStart s <:+ s :=
  List.dropWhile_suffix _

end Text

namespace Script

open Text

variable {front behind s w : List Char} {d : Declarator}

/-! ## Where the reader stands -/

/-- The nesting behind a text. -/
def Nesting.after (n : Nesting) (s : List Char) : Nesting :=
  s.foldl Nesting.next n

/-- Whether the quotes that a text opens are closed where it ends. -/
def closesQuotes (s : List Char) : Bool :=
  s.foldl Inside.next .code == .code

theorem Nesting.after_append (n : Nesting) (s t : List Char) :
    n.after (s ++ t) = (n.after s).after t :=
  List.foldl_append ..

theorem Nesting.inside_after (n : Nesting) (s : List Char) :
    (n.after s).inside = s.foldl Inside.next n.inside := by
  induction s generalizing n with
  | nil => rfl
  | cons c cs ih => exact ih (n.next c)

/-- Ordinary characters change nothing in code. -/
theorem Nesting.after_ordinary (hw : ∀ c ∈ w, isOrdinary c = true) (depth : Nat) :
    Nesting.after ⟨depth, .code⟩ w = ⟨depth, .code⟩ := by
  induction w with
  | nil => rfl
  | cons c cs ih =>
    rw [List.forall_mem_cons] at hw
    have hnext : Nesting.next ⟨depth, .code⟩ c = ⟨depth, .code⟩ := by
      have hc := hw.1
      simp only [isOrdinary, Bool.not_eq_true', Bool.or_eq_false_iff] at hc
      obtain ⟨⟨⟨hquote, hopening⟩, hclosing⟩, -⟩ := hc
      simp [Nesting.next, Inside.next, hquote, hopening, hclosing]
    exact (congrArg (fun n => Nesting.after n cs) hnext).trans (ih hw.2)

theorem isOrdinary_of_isBlank {c : Char} (h : isBlank c = true) : isOrdinary c = true :=
  isOrdinary_of rfl h

/-- Blanks open and close no brackets, wherever they stand. -/
theorem Nesting.depth_after_blank (hw : ∀ c ∈ w, isBlank c = true) (n : Nesting) :
    (n.after w).depth = n.depth := by
  induction w generalizing n with
  | nil => rfl
  | cons c cs ih =>
    rw [List.forall_mem_cons] at hw
    have hc := isOrdinary_of_isBlank hw.1
    simp only [isOrdinary, Bool.not_eq_true', Bool.or_eq_false_iff] at hc
    obtain ⟨⟨⟨-, hopening⟩, hclosing⟩, -⟩ := hc
    have hnext : (n.next c).depth = n.depth := by simp [Nesting.next, hopening, hclosing]
    exact (ih hw.2 (n.next c)).trans hnext

/-- A text whose quotes are closed leaves the reader where blanks behind it do not move it. -/
theorem after_eq_outermost (hw : ∀ c ∈ w, isBlank c = true)
    (h : Nesting.outermost.after (s ++ w) = .outermost) (hs : closesQuotes s = true) :
    Nesting.outermost.after s = .outermost := by
  have hdepth : (Nesting.outermost.after s).depth = 0 := by
    rw [← Nesting.depth_after_blank hw, ← Nesting.after_append, h]
    rfl
  have hinside : (Nesting.outermost.after s).inside = .code := by
    rw [Nesting.inside_after]
    exact eq_of_beq hs
  generalize Nesting.outermost.after s = n at hdepth hinside
  obtain ⟨depth, inside⟩ := n
  rw [Nesting.outermost, ← hdepth, ← hinside]

/-! ## The first comma -/

/-- A comma outside all brackets and quotes stands in code. -/
theorem eq_outermost_of_atTop {n : Nesting} (h : n.atTop ',' = true) : n = .outermost := by
  obtain ⟨depth, inside⟩ := n
  rw [Nesting.atTop, Bool.and_eq_true, beq_iff_eq] at h
  obtain ⟨rfl, h⟩ := h
  cases inside with
  | code => rfl
  | quoted q => exact absurd h (by simp [Inside.breaksOff])
  | escaped q => cases h

/-- The offset of the first comma that the reader finds. -/
def commaAt? (n : Nesting) : List Char → Option Nat
  | [] => none
  | c :: cs => if n.atTop c && c == ',' then some 0 else (commaAt? (n.next c) cs).map (· + 1)

theorem findTop?_eq_commaAt? (s : List Char) : findTop? ',' s = commaAt? .outermost s := by
  have hmarked : ∀ (n : Nesting) (s : List Char),
      (marked n s).findIdx? (fun m => m.2 && m.1 == ',') = commaAt? n s := by
    intro n s
    induction s generalizing n with
    | nil => rfl
    | cons c cs ih => rw [marked, List.findIdx?_cons, ih, commaAt?]
  exact hmarked .outermost s

/-- The first comma is behind a text without one that leaves the reader outside all brackets and
quotes. -/
theorem commaAt?_append {n : Nesting} (hfront : topComma n front = false)
    (hafter : n.after front = .outermost) (behind : List Char) :
    commaAt? n (front ++ ',' :: behind) = some front.length := by
  induction front generalizing n with
  | nil =>
    obtain rfl : n = .outermost := hafter
    rfl
  | cons c cs ih =>
    rw [topComma_cons, Bool.or_eq_false_iff] at hfront
    rw [List.cons_append, commaAt?, hfront.1, ih hfront.2 hafter]
    rfl

/-- A text has no such comma, or there is a first one. -/
theorem topComma_cases (n : Nesting) (s : List Char) :
    topComma n s = false ∨ ∃ front behind, s = front ++ ',' :: behind ∧
      topComma n front = false ∧ n.after front = .outermost := by
  induction s generalizing n with
  | nil => exact .inl rfl
  | cons c cs ih =>
    rw [topComma_cons]
    cases hcomma : n.atTop c && c == ',' with
    | true =>
      rw [Bool.and_eq_true, beq_iff_eq] at hcomma
      obtain ⟨htop, rfl⟩ := hcomma
      exact .inr ⟨[], cs, rfl, rfl, eq_outermost_of_atTop htop⟩
    | false =>
      rcases ih (n.next c) with hnone | ⟨front, behind, rfl, hfront, hafter⟩
      · exact .inl (by rw [hnone, Bool.or_self])
      · refine .inr ⟨c :: front, behind, rfl, ?_, hafter⟩
        rw [topComma_cons, hcomma, hfront, Bool.or_self]

/-! ## Initial values -/

theorem initializer_of_no_comma (h : topComma .outermost s = false) :
    initializer ('=' :: s) = (trim s, []) := by
  have hfind : findTop? ',' ('=' :: s) = none :=
    findTop?_eq_none (by rw [Nesting.outermost, topComma_ordinary rfl]; exact h)
  simp [initializer, hfind]

theorem initializer_of_comma (hfront : topComma .outermost front = false)
    (hafter : Nesting.outermost.after front = .outermost) (behind : List Char) :
    initializer ('=' :: (front ++ ',' :: behind)) = (trim front, ',' :: behind) := by
  have hcomma : topComma .outermost ('=' :: front) = false := by
    rw [Nesting.outermost, topComma_ordinary rfl]
    exact hfront
  have hfind : findTop? ',' ('=' :: (front ++ ',' :: behind)) = some (front.length + 1) := by
    rw [findTop?_eq_commaAt?]
    exact commaAt?_append hcomma hafter behind
  simp [initializer, hfind]

/-- **An initial value has no comma of its own**, and no blanks around it.  What comes behind it
starts outside all brackets and quotes, if those of the value are closed. -/
theorem initializer_spec (s : List Char) :
    (initializer s).2 <:+ s ∧ trim (initializer s).1 = (initializer s).1 ∧
      topComma .outermost (initializer s).1 = false ∧
      ((initializer s).2 ≠ [] → closesQuotes (initializer s).1 = true →
        Nesting.outermost.after (initializer s).1 = .outermost) := by
  have htrim : ∀ t, topComma .outermost t = false → topComma .outermost (trim t) = false := by
    intro t ht
    obtain ⟨v, w, hv, -, hsplit⟩ := exists_trim_append t
    rw [hsplit, Nesting.outermost,
      topComma_append fun c hc => isOrdinary_of_isBlank (hv c hc)] at ht
    exact topComma_of_append ht
  by_cases hs : ∃ t, s = '=' :: t
  · obtain ⟨t, rfl⟩ := hs
    rcases topComma_cases .outermost t with ht | ⟨front, behind, rfl, hfront, hafter⟩
    · rw [initializer_of_no_comma ht]
      exact ⟨List.nil_suffix, trim_trim t, htrim t ht, fun h => absurd rfl h⟩
    · rw [initializer_of_comma hfront hafter]
      refine ⟨⟨'=' :: front, rfl⟩, trim_trim front, htrim front hfront, fun _ hquotes => ?_⟩
      obtain ⟨v, w, hv, hw, hsplit⟩ := exists_trim_append front
      have hlead : Nesting.outermost.after (v ++ (trim front ++ w)) =
          Nesting.outermost.after (trim front ++ w) := by
        rw [Nesting.after_append]
        exact congrArg (fun n => Nesting.after n _)
          (Nesting.after_ordinary (fun c hc => isOrdinary_of_isBlank (hv c hc)) 0)
      rw [hsplit, hlead] at hafter
      exact after_eq_outermost hw hafter hquotes
  · have hnone : initializer s = ([], s) := by
      rw [initializer]
      · exact fun t ht => hs ⟨t, ht⟩
    rw [hnone]
    exact ⟨List.suffix_rfl, rfl, rfl, fun _ _ => rfl⟩

/-! ## Patterns -/

/-- A text is taken for a pattern in front of whatever does not go on with a name. -/
def ReadsPattern (p : List Char) : Prop :=
  ∀ more : List Char, (∀ c ∈ more.head?, isNameRest c = false) →
    patternLength (p ++ more) = p.length

/-- The first bracket is closed, whatever comes behind the closing one, or never. -/
theorem bracketLength_cases (n : Nesting) (s : List Char) :
    (∃ body c more, s = body ++ [c] ++ more ∧ isClosing c = true ∧
      ∀ behind, bracketLength n (body ++ [c] ++ behind) = (body ++ [c]).length) ∨
    bracketLength n s = s.length := by
  induction s generalizing n with
  | nil => exact .inr rfl
  | cons c cs ih =>
    cases hclose : n.inside == .code && isClosing c && (n.next c).depth == 0 with
    | true =>
      refine .inl ⟨[], c, cs, rfl, ?_, fun behind => ?_⟩
      · rw [Bool.and_eq_true, Bool.and_eq_true] at hclose
        exact hclose.1.2
      · rw [List.nil_append, List.singleton_append, bracketLength, hclose]
        rfl
    | false =>
      have hstep : ∀ t, bracketLength n (c :: t) = 1 + bracketLength (n.next c) t := by
        intro t
        rw [bracketLength, hclose]
        rfl
      rcases ih (n.next c) with ⟨body, d, more, rfl, hd, hbody⟩ | hopen
      · refine .inl ⟨c :: body, d, more, rfl, hd, fun behind => ?_⟩
        rw [List.cons_append, List.cons_append, hstep, hbody, List.length_cons, Nat.add_comm]
      · exact .inr (by rw [hstep, hopen, List.length_cons, Nat.add_comm])

theorem isBlank_of_isClosing {c : Char} (h : isClosing c = true) : isBlank c = false := by
  simp only [isClosing, Bool.or_eq_true, beq_iff_eq] at h
  rcases h with (rfl | rfl) | rfl <;> decide

/-- **A pattern at the start of a text** is one in front of other texts, too, unless it is a bracket
that is never closed: then it is the whole text. -/
theorem patternLength_cases (h : patternLength s ≠ 0) :
    ∃ p more, s = p ++ more ∧ patternLength s = p.length ∧
      (∃ c ∈ p.head?, isBlank c = false) ∧ (ReadsPattern p ∧ trimEnd p = p ∨ more = []) := by
  cases s with
  | nil => exact absurd rfl h
  | cons c cs =>
    cases hbracket : c == '{' || c == '[' with
    | true =>
      have hc : isBlank c = false := by
        rw [Bool.or_eq_true, beq_iff_eq, beq_iff_eq] at hbracket
        rcases hbracket with rfl | rfl <;> decide
      have hlength : ∀ t : List Char, t.head? = some c →
          patternLength t = bracketLength .outermost t := by
        intro t ht
        obtain ⟨t, rfl⟩ := List.head?_eq_some_iff.1 ht
        rw [patternLength, hbracket]
        rfl
      rcases bracketLength_cases .outermost (c :: cs) with ⟨body, d, more, hs, hd, hbody⟩ | hopen
      · have hhead : (body ++ [d]).head? = some c := by
          rw [← List.head?_append_of_ne_nil (body ++ [d]) (by simp), ← hs]
          rfl
        have hpattern : ∀ behind, patternLength (body ++ [d] ++ behind) = (body ++ [d]).length := by
          intro behind
          rw [hlength _ (by rw [List.head?_append_of_ne_nil _ (by simp), hhead]), hbody]
        exact ⟨body ++ [d], more, hs, by rw [hs, hpattern], ⟨c, hhead, hc⟩,
          .inl ⟨fun behind _ => hpattern behind, trimEnd_concat (isBlank_of_isClosing hd) body⟩⟩
      · exact ⟨c :: cs, [], by rw [List.append_nil], by rw [hlength _ rfl, hopen], ⟨c, rfl, hc⟩,
          .inr rfl⟩
    | false =>
      have hstart : isNameStart c = true := by
        by_contra hnot
        rw [patternLength, hbracket, if_neg hnot] at h
        exact h rfl
      have hname : Scope.isName (c :: cs.takeWhile isNameRest) = true := by
        rw [Scope.isName, hstart, List.all_takeWhile]
        rfl
      have hblank := isBlank_of_isName hname
      refine ⟨c :: cs.takeWhile isNameRest, cs.dropWhile isNameRest, ?_, ?_,
        ⟨c, rfl, hblank c List.mem_cons_self⟩,
        .inl ⟨fun more hmore => patternLength_name hname hmore, ?_⟩⟩
      · rw [List.cons_append, List.takeWhile_append_dropWhile]
      · rw [patternLength, hbracket, hstart, List.length_cons, Nat.add_comm]
        rfl
      · rw [← trim_eq_self hblank, trim, trimEnd_trimEnd]

/-! ## Declarators and their text -/

/-- The text of declarators. -/
def textOf (ds : List Declarator) : List Char :=
  (", ".intercalate (ds.map Declarator.text)).toList

theorem textOf_singleton (d : Declarator) : textOf [d] = d.text.toList := by
  simp [textOf]

theorem textOf_cons (d : Declarator) {ds : List Declarator} (hds : ds ≠ []) :
    textOf (d :: ds) = d.text.toList ++ ',' :: ' ' :: textOf ds := by
  obtain ⟨e, es, rfl⟩ := List.exists_cons_of_ne_nil hds
  simp [textOf]

/-- The initial value of a declarator with the sign in front of it. -/
def Declarator.tail (d : Declarator) : List Char :=
  if d.init.isEmpty then [] else ' ' :: '=' :: ' ' :: d.init.toList

theorem Declarator.toList_text (d : Declarator) : d.text.toList = d.pattern.toList ++ d.tail := by
  rw [text, tail]
  split <;> simp

/-- A declarator whose pattern starts with something and ends without blanks. -/
structure Declarator.IsTrimmed (d : Declarator) : Prop where
  start : ∃ c ∈ d.pattern.toList.head?, isBlank c = false
  stop : trimEnd d.pattern.toList = d.pattern.toList

/-- A declarator that is read back in front of another one, or of nothing. -/
structure Declarator.IsTidy (d : Declarator) : Prop extends d.IsTrimmed where
  pattern : ReadsPattern d.pattern.toList
  init : trim d.init.toList = d.init.toList
  comma : topComma .outermost d.init.toList = false

/-- Declarators that are read back from their text. -/
inductive Settled : List Declarator → Prop where
  | nil : Settled []
  /-- A bracket that is never closed is all there is. -/
  | unclosed {p : String} (h : Declarator.IsTrimmed ⟨p, ""⟩)
      (hp : patternLength p.toList = p.toList.length) : Settled [⟨p, ""⟩]
  | last {d : Declarator} (h : d.IsTidy) : Settled [d]
  | cons {d : Declarator} {ds : List Declarator} (h : d.IsTidy)
      (hafter : Nesting.outermost.after d.init.toList = .outermost) (hne : ds ≠ [])
      (hds : Settled ds) : Settled (d :: ds)

/-- A declarator and those behind it: there are others only behind a comma. -/
def goOn (fuel : Nat) (d : Declarator) (rest : List Char) : List Declarator :=
  match trimStart rest with
  | ',' :: rest => d :: declaratorsFrom fuel (trimStart rest)
  | _ => [d]

theorem declaratorsFrom_succ (fuel : Nat) (s : List Char) :
    declaratorsFrom (fuel + 1) s =
      if patternLength s == 0 then []
      else
        let found := initializer (afterTypeMark (trimStart (s.drop (patternLength s))))
        goOn fuel ⟨String.ofList (s.take (patternLength s)), String.ofList found.1⟩ found.2 :=
  rfl

/-- What is read behind the pattern of a declarator. -/
theorem Declarator.IsTidy.initializer_tail (h : d.IsTidy) (hbehind : behind = [] ∨
      (∃ rest, behind = ',' :: rest) ∧ Nesting.outermost.after d.init.toList = .outermost) :
    initializer (afterTypeMark (trimStart (d.tail ++ behind))) = (d.init.toList, behind) := by
  by_cases hempty : d.init.isEmpty = true
  · have hinit : d.init.toList = [] := by simpa [String.isEmpty_iff] using hempty
    rw [tail, if_pos hempty, hinit]
    rcases hbehind with rfl | ⟨⟨rest, rfl⟩, -⟩
    · rfl
    · rfl
  · have hspace : trim (' ' :: d.init.toList) = d.init.toList := h.init
    have hcomma : topComma .outermost (' ' :: d.init.toList) = false := by
      rw [Nesting.outermost, topComma_ordinary rfl]
      exact h.comma
    have hmark : afterTypeMark (trimStart (d.tail ++ behind)) =
        '=' :: (' ' :: d.init.toList ++ behind) := by
      rw [tail, if_neg hempty]
      rfl
    rw [hmark]
    rcases hbehind with rfl | ⟨⟨rest, rfl⟩, hafter⟩
    · rw [List.append_nil, initializer_of_no_comma hcomma, hspace]
    · rw [initializer_of_comma hcomma hafter, hspace]

/-- What follows a pattern does not go on with its name. -/
theorem Declarator.head?_tail (d : Declarator)
    (hbehind : behind = [] ∨ ∃ rest, behind = ',' :: rest) :
    ∀ c ∈ (d.tail ++ behind).head?, isNameRest c = false := by
  rw [tail]
  split
  · rcases hbehind with rfl | ⟨rest, rfl⟩
    · rintro c ⟨⟩
    · rintro c ⟨⟩
      decide
  · rintro c ⟨⟩
    decide

theorem Declarator.IsTrimmed.length_pos (h : d.IsTrimmed) : 0 < d.pattern.toList.length := by
  obtain ⟨c, hc, -⟩ := h.start
  exact List.length_pos_of_mem (List.mem_of_mem_head? hc)

/-- **One declarator is read back**, in front of whatever is read behind a comma. -/
theorem Declarator.IsTidy.declaratorsFrom (h : d.IsTidy) (fuel : Nat) :
    Script.declaratorsFrom (fuel + 1) d.text.toList = [d] ∧
      (Nesting.outermost.after d.init.toList = .outermost → ∀ rest,
        Script.declaratorsFrom (fuel + 1) (d.text.toList ++ ',' :: rest) =
          d :: Script.declaratorsFrom fuel (trimStart rest)) := by
  have hpos : (d.pattern.toList.length == 0) = false := by
    rw [beq_eq_false_iff_ne]
    exact Nat.ne_of_gt h.length_pos
  have hread : ∀ behind, (behind = [] ∨
      (∃ rest, behind = ',' :: rest) ∧ Nesting.outermost.after d.init.toList = .outermost) →
      Script.declaratorsFrom (fuel + 1) (d.text.toList ++ behind) = goOn fuel d behind := by
    intro behind hbehind
    have hlength := h.pattern (d.tail ++ behind) (d.head?_tail (hbehind.imp_right And.left))
    rw [d.toList_text, List.append_assoc, declaratorsFrom_succ, hlength, hpos, List.drop_left,
      List.take_left, h.initializer_tail hbehind]
    simp only [String.ofList_toList]
    rfl
  refine ⟨?_, fun hafter rest => ?_⟩
  · have hlast := hread [] (.inl rfl)
    rwa [List.append_nil] at hlast
  · exact hread (',' :: rest) (.inr ⟨⟨rest, rfl⟩, hafter⟩)

/-- The text of declarators starts with the first pattern. -/
theorem trimStart_textOf (h : ∃ c ∈ d.pattern.toList.head?, isBlank c = false)
    (ds : List Declarator) : trimStart (textOf (d :: ds)) = textOf (d :: ds) := by
  obtain ⟨c, hc, hblank⟩ := h
  obtain ⟨cs, hpattern⟩ := List.head?_eq_some_iff.1 hc
  have htext : ∃ more, textOf (d :: ds) = c :: more := by
    by_cases hds : ds = []
    · subst hds
      exact ⟨_, by rw [textOf_singleton, d.toList_text, hpattern]; rfl⟩
    · exact ⟨_, by rw [textOf_cons d hds, d.toList_text, hpattern]; rfl⟩
  obtain ⟨more, htext⟩ := htext
  rw [htext, trimStart_of_head hblank]

theorem Declarator.IsTidy.trimEnd_text (h : d.IsTidy) : trimEnd d.text.toList = d.text.toList := by
  rw [d.toList_text, tail]
  split
  · rw [List.append_nil, h.stop]
  · rename_i hempty
    have hend : trimEnd d.init.toList = d.init.toList := by
      rw [← h.init, trim, trimEnd_trimEnd]
    have hne : trimEnd d.init.toList ≠ [] := by
      rw [hend]
      simpa [String.isEmpty_iff] using hempty
    have happend := trimEnd_append hne (d.pattern.toList ++ [' ', '=', ' '])
    rw [hend, List.append_assoc] at happend
    exact happend

namespace Settled

variable {ds : List Declarator}

theorem isTrimmed (h : Settled (d :: ds)) : d.IsTrimmed := by
  cases h with
  | unclosed h _ => exact h
  | last h => exact h.toIsTrimmed
  | cons h _ _ _ => exact h.toIsTrimmed

theorem trimStart_textOf (h : Settled ds) : trimStart (textOf ds) = textOf ds := by
  cases ds with
  | nil => rfl
  | cons d ds => exact Script.trimStart_textOf h.isTrimmed.start ds

theorem length_le_textOf (h : Settled ds) : ds.length ≤ (textOf ds).length := by
  have hlength : ∀ d : Declarator, d.IsTrimmed → 1 ≤ d.text.toList.length := by
    intro d hd
    have hpos := hd.length_pos
    rw [d.toList_text, List.length_append]
    omega
  induction h with
  | nil => exact Nat.le_refl 0
  | unclosed h _ =>
    rw [textOf_singleton]
    exact hlength _ h
  | last h =>
    rw [textOf_singleton]
    exact hlength _ h.toIsTrimmed
  | cons h _ hne _ ih =>
    rw [textOf_cons _ hne, List.length_append]
    simp only [List.length_cons]
    omega

theorem trimEnd_textOf (h : Settled ds) : trimEnd (textOf ds) = textOf ds := by
  induction h with
  | nil => rfl
  | unclosed h _ =>
    rw [textOf_singleton]
    exact h.stop
  | last h =>
    rw [textOf_singleton, h.trimEnd_text]
  | cons h hafter hne hds ih =>
    rename_i d ds
    have hpos : 0 < ds.length := List.length_pos_iff.2 hne
    have htext : trimEnd (textOf ds) ≠ [] := by
      intro hnil
      have hle := hds.length_le_textOf
      rw [ih.symm.trans hnil, List.length_nil] at hle
      omega
    have happend := trimEnd_append htext (d.text.toList ++ [',', ' '])
    rw [ih, List.append_assoc] at happend
    rw [textOf_cons d hne]
    exact happend

theorem declaratorsFrom_textOf (h : Settled ds) {fuel : Nat}
    (hfuel : ds.length ≤ fuel) : declaratorsFrom fuel (textOf ds) = ds := by
  induction h generalizing fuel with
  | nil => cases fuel <;> rfl
  | unclosed h hp =>
    rename_i p
    obtain ⟨fuel, rfl⟩ : ∃ k, fuel = k + 1 := Nat.exists_eq_add_of_le' hfuel
    have hpos : (p.toList.length == 0) = false := by
      rw [beq_eq_false_iff_ne]
      exact Nat.ne_of_gt h.length_pos
    have htext : textOf [⟨p, ""⟩] = p.toList := by
      rw [textOf_singleton]
      rfl
    rw [htext, declaratorsFrom_succ, hp, hpos, List.drop_length, List.take_length,
      String.ofList_toList]
    rfl
  | last h =>
    obtain ⟨fuel, rfl⟩ : ∃ k, fuel = k + 1 := Nat.exists_eq_add_of_le' hfuel
    rw [textOf_singleton]
    exact (h.declaratorsFrom fuel).1
  | cons h hafter hne hds ih =>
    rename_i d ds
    obtain ⟨fuel, rfl⟩ : ∃ k, fuel = k + 1 :=
      Nat.exists_eq_add_of_le' (Nat.le_trans (Nat.le_add_left 1 ds.length) hfuel)
    have hrest : trimStart (' ' :: textOf ds) = textOf ds := hds.trimStart_textOf
    rw [textOf_cons d hne, (h.declaratorsFrom fuel).2 hafter, hrest,
      ih (Nat.le_of_succ_le_succ hfuel)]

theorem declarators_textOf (h : Settled ds) :
    declarators (textOf ds) = ds := by
  have htrim : trim (textOf ds) = textOf ds := by
    rw [trim, h.trimStart_textOf, h.trimEnd_textOf]
  rw [declarators, htrim]
  exact h.declaratorsFrom_textOf h.length_le_textOf

end Settled

/-! ## Declarators that were read -/

/-- What follows the mark of a name that is assigned later. -/
def afterMark (s : List Char) : List Char :=
  match s with
  | '!' :: rest => trimStart rest
  | _ => s

theorem afterMark_suffix (s : List Char) : afterMark s <:+ s := by
  fun_cases afterMark s with
  | case1 rest => exact (trimStart_suffix rest).trans (List.suffix_cons _ _)
  | case2 => exact List.suffix_rfl

theorem afterTypeMark_suffix (s : List Char) : afterTypeMark s <:+ s := by
  have hmark : afterMark s <:+ s := afterMark_suffix s
  fun_cases afterTypeMark s with
  | case1 marked _ _ i => exact (List.drop_suffix i marked).trans hmark
  | case2 => exact List.nil_suffix
  | case3 => exact hmark

theorem goOn_cases (fuel : Nat) (d : Declarator) (rest : List Char) :
    (∃ more, trimStart more <:+ rest ∧ rest ≠ [] ∧
      goOn fuel d rest = d :: declaratorsFrom fuel (trimStart more)) ∨ goOn fuel d rest = [d] := by
  rw [goOn]
  split
  · rename_i more hrest
    have hsuffix : more <:+ rest :=
      (List.suffix_cons ',' more).trans (hrest ▸ trimStart_suffix rest)
    refine .inl ⟨more, (trimStart_suffix more).trans hsuffix, ?_, rfl⟩
    rintro rfl
    cases hrest
  · exact .inr rfl

theorem settled_goOn {fuel : Nat} (hd : d.IsTidy) {rest : List Char}
    (hafter : rest ≠ [] → closesQuotes d.init.toList = true →
      Nesting.outermost.after d.init.toList = .outermost)
    (hquotes : ∀ e ∈ (goOn fuel d rest).dropLast, closesQuotes e.init.toList = true)
    (hmore : ∀ more, more <:+ rest →
      (∀ e ∈ (declaratorsFrom fuel more).dropLast, closesQuotes e.init.toList = true) →
      Settled (declaratorsFrom fuel more)) : Settled (goOn fuel d rest) := by
  rcases goOn_cases fuel d rest with ⟨more, hsuffix, hne, hmany⟩ | hone
  · rw [hmany] at hquotes ⊢
    by_cases hnil : declaratorsFrom fuel (trimStart more) = []
    · rw [hnil]
      exact .last hd
    · rw [List.dropLast_cons_of_ne_nil hnil, List.forall_mem_cons] at hquotes
      exact .cons hd (hafter hne hquotes.1) hnil (hmore _ hsuffix hquotes.2)
  · rw [hone]
    exact .last hd

/-- **Declarators that were read are settled**, if the quotes of their values are closed, those of
the last one apart. -/
theorem settled_declaratorsFrom (fuel : Nat) (hs : trimEnd s = s)
    (hquotes : ∀ d ∈ (declaratorsFrom fuel s).dropLast, closesQuotes d.init.toList = true) :
    Settled (declaratorsFrom fuel s) := by
  induction fuel generalizing s with
  | zero => exact .nil
  | succ fuel ih =>
    rw [declaratorsFrom_succ] at hquotes ⊢
    by_cases hzero : patternLength s = 0
    · rw [hzero]
      exact .nil
    obtain ⟨p, more, rfl, hlength, hstart, hcase⟩ := patternLength_cases hzero
    have hpos : (p.length == 0) = false := by rw [← hlength, beq_eq_false_iff_ne]; exact hzero
    rw [hlength, hpos, List.drop_left, List.take_left] at hquotes ⊢
    rcases hcase with ⟨hpattern, hstop⟩ | rfl
    · obtain ⟨hsuffix, hinit, hcomma, hafter⟩ :=
        initializer_spec (afterTypeMark (trimStart more))
      refine settled_goOn ⟨⟨?_, ?_⟩, ?_, ?_, ?_⟩ ?_ hquotes fun t ht ht' => ?rest
      case rest =>
        have hwhole : t <:+ p ++ more :=
          ht.trans (hsuffix.trans ((afterTypeMark_suffix _).trans
            ((trimStart_suffix more).trans (List.suffix_append p more))))
        exact ih (trimEnd_of_suffix hwhole hs) ht'
      all_goals rwa [String.toList_ofList]
    · rw [List.append_nil] at hlength hs
      refine .unclosed ⟨?_, ?_⟩ ?_ <;> rwa [String.toList_ofList]

/-- **What declares is declared by its own text.** -/
theorem declarators_declarators
    (hquotes : ∀ d ∈ (declarators s).dropLast, closesQuotes d.init.toList = true) :
    declarators (textOf (declarators s)) = declarators s :=
  (settled_declaratorsFrom _ (trimEnd_trimEnd _) hquotes).declarators_textOf

end Script
end Atoll
