import Atoll.Proofs.Acceptance
import Atoll.Proofs.Digits
import Mathlib

/-!
# Raw text runs up to its closing tag

Two scanners meet at the end of a raw-text element.  One looks through the content for the closing
tag and ignores case; the other reads the closing tag and knows the letters of ASCII only.  They
agree unless the tag is written with one of the three letters beyond ASCII that stand for an `s` or
an `i` when case is ignored.

* `Spells`, `closesRawText_iff` — the spellings of a name, and where the search for a closing tag
  ends.
* `closingTag?_plain`, `closingTag?_mimicked`, `contentStep_closesRawText` — what is read there.
* `RawTextEnds` — what follows the opening tag of a raw-text element; `rawTextEnds_lexFrom` shows
  that it does, in one run.
* `Swallows`, `lexFrom_swallows` — hence it follows every such tag, by induction on the run.
* `tokenize_swallows` — the result for the tokens of any source.
-/

set_option autoImplicit false

namespace Atoll
namespace Markup

open Text

variable {s word name : List Char} {c : Cursor} {opened : Option String}

/-! ## Spellings of a name -/

/-- The letters beyond ASCII that stand for a letter of ASCII when case is ignored. -/
def isLookalike (c : Char) : Bool :=
  c == 'ſ' || c == 'İ' || c == 'ı'

/-- A word has the letters of a name when case is ignored. -/
def Spells (name word : List Char) : Prop :=
  List.Forall₂ (fun letter c => matchesLetter letter c = true) name word

/-- A letter is matched by itself in either case, or by a lookalike. -/
theorem matchesLetter_cases {letter c : Char} (h : matchesLetter letter c = true) :
    c.toLower = letter.toLower ∨ isLookalike c = true := by
  simp only [matchesLetter, Bool.or_eq_true, Bool.and_eq_true, beq_iff_eq] at h
  rcases h with (h | ⟨-, rfl⟩) | ⟨-, rfl | rfl⟩
  · exact .inl h
  · exact .inr rfl
  · exact .inr rfl
  · exact .inr rfl

theorem isTagChar_toLower (c : Char) : isTagChar c.toLower = isTagChar c := by
  by_cases hupper : c.isUpper = true
  · have halpha : c.isAlpha = true := by rw [Char.isAlpha, hupper, Bool.true_or]
    have hlower : c.toLower.isAlpha = true := by rw [Char.isAlpha_toLower_eq_isAlpha, halpha]
    rw [isTagChar, isTagChar, Char.isAlphanum, Char.isAlphanum, halpha, hlower]
    rfl
  · rw [Char.toLower_eq_of_not_isUpper hupper]

/-- Only lookalikes make a spelling differ from the name in more than case. -/
theorem lower_of_spells (h : Spells name word) (hword : ∀ c ∈ word, isLookalike c = false) :
    word.map Char.toLower = name.map Char.toLower := by
  induction h with
  | nil => rfl
  | cons hc _ ih =>
    rw [List.forall_mem_cons] at hword
    rcases matchesLetter_cases hc with hlower | hlookalike
    · rw [List.map_cons, List.map_cons, hlower, ih hword.2]
    · exact absurd (hword.1.symm.trans hlookalike) Bool.false_ne_true

/-- A word with the letters of a tag name in either case is a tag name. -/
theorem isTagChar_of_lower (h : word.map Char.toLower = name.map Char.toLower)
    (hname : ∀ c ∈ name, isTagChar c = true) : ∀ c ∈ word, isTagChar c = true := by
  intro c hc
  have hmem : c.toLower ∈ name.map Char.toLower := h ▸ List.mem_map_of_mem hc
  obtain ⟨letter, hletter, heq⟩ := List.mem_map.1 hmem
  rw [← isTagChar_toLower, ← heq, isTagChar_toLower]
  exact hname letter hletter

theorem isTagChar_of_isLookalike {c : Char} (h : isLookalike c = true) : isTagChar c = false := by
  simp only [isLookalike, Bool.or_eq_true, beq_iff_eq] at h
  rcases h with (rfl | rfl) | rfl <;> decide

theorem afterName?_eq_some {rest : List Char} :
    afterName? name s = some rest ↔ ∃ word, Spells name word ∧ s = word ++ rest := by
  induction name generalizing s with
  | nil =>
    constructor
    · intro h
      exact ⟨[], .nil, Option.some.inj h⟩
    · rintro ⟨word, hword, rfl⟩
      cases hword
      rfl
  | cons letter name ih =>
    constructor
    · intro h
      cases s with
      | nil => cases h
      | cons c cs =>
        rw [afterName?] at h
        split at h
        · rename_i hc
          obtain ⟨word, hword, rfl⟩ := ih.1 h
          exact ⟨c :: word, .cons hc hword, rfl⟩
        · cases h
    · rintro ⟨word, hword, rfl⟩
      obtain ⟨hc, hword⟩ | ⟨hc, hword⟩ := hword
      rw [List.cons_append, afterName?, if_pos hc]
      exact ih.2 ⟨_, hword, rfl⟩

/-! ## Where the search ends -/

/-- The text of a closing tag. -/
def closingText (word gap : List Char) : List Char :=
  '<' :: '/' :: (word ++ (gap ++ ['>']))

/-- **The search for a closing tag ends in front of a spelling of the name** between the brackets of
a closing tag. -/
theorem closesRawText_iff : closesRawText name s = true ↔
    ∃ word gap rest, Spells name word ∧ (∀ c ∈ gap, isTagSpace c = true) ∧
      s = closingText word gap ++ rest := by
  constructor
  · intro h
    fun_cases closesRawText name s with
    | case1 cs rest hafter =>
      obtain ⟨word, hword, rfl⟩ := afterName?_eq_some.1 hafter
      rw [closesRawText, hafter] at h
      obtain ⟨more, hmore⟩ := List.head?_eq_some_iff.1 (eq_of_beq h)
      refine ⟨word, rest.takeWhile isTagSpace, more, hword,
        List.all_eq_true.1 List.all_takeWhile, ?_⟩
      nth_rewrite 1 [← List.takeWhile_append_dropWhile (p := isTagSpace) (l := rest), hmore]
      simp [closingText]
    | case2 cs hafter =>
      rw [closesRawText, hafter] at h
      cases h
    | case3 =>
      rename_i hother
      rw [closesRawText] at h
      · cases h
      · exact hother
  · rintro ⟨word, gap, rest, hword, hgap, rfl⟩
    have hafter : afterName? name (word ++ (gap ++ '>' :: rest)) = some (gap ++ '>' :: rest) :=
      afterName?_eq_some.2 ⟨word, hword, rfl⟩
    have hspace : isTagSpace '>' = false := rfl
    simp [closingText, closesRawText, hafter, List.dropWhile_append_of_pos hgap, hspace]

/-- A closing tag is found whatever comes behind it. -/
theorem closesRawText_of_isPrefix {t : List Char} (h : closesRawText name s = true)
    (hs : s <+: t) : closesRawText name t = true := by
  obtain ⟨word, gap, rest, hword, hgap, rfl⟩ := closesRawText_iff.1 h
  obtain ⟨more, rfl⟩ := hs
  exact closesRawText_iff.2 ⟨word, gap, rest ++ more, hword, hgap, by rw [List.append_assoc]⟩

/-- Raw text ends at the first closing tag, or at the end. -/
theorem rawTextLength_spec (name s : List Char) :
    (∀ j < rawTextLength name s, closesRawText name (s.drop j) = false) ∧
      (s.drop (rawTextLength name s) = [] ∨
        closesRawText name (s.drop (rawTextLength name s)) = true) := by
  induction s with
  | nil => exact ⟨fun j hj => absurd hj (Nat.not_lt_zero j), .inl rfl⟩
  | cons c cs ih =>
    by_cases hclose : closesRawText name (c :: cs) = true
    · rw [rawTextLength, if_pos hclose]
      exact ⟨fun j hj => absurd hj (Nat.not_lt_zero j), .inr hclose⟩
    · rw [rawTextLength, if_neg hclose, Nat.add_comm, List.drop_succ_cons]
      refine ⟨fun j hj => ?_, ih.2⟩
      cases j with
      | zero => exact Bool.eq_false_of_not_eq_true hclose
      | succ j => exact ih.1 j (Nat.lt_of_succ_lt_succ hj)

/-- There is no closing tag in raw text. -/
theorem closesRawText_of_infix {t : List Char}
    (ht : t <:+: s.take (rawTextLength name s)) : closesRawText name t = false := by
  by_contra hclose
  rw [Bool.not_eq_false] at hclose
  obtain ⟨a, b, hsplit⟩ := ht
  have hne : t ≠ [] := by
    rintro rfl
    cases hclose
  have hlength : a.length < rawTextLength name s := by
    have hlength := congrArg List.length hsplit
    have hpos := List.length_pos_iff.2 hne
    rw [List.length_append, List.length_append, List.length_take] at hlength
    omega
  have hprefix : t <+: s.drop a.length := by
    have hs : s = a ++ (t ++ (b ++ s.drop (rawTextLength name s))) := by
      rw [← List.append_assoc, ← List.append_assoc, hsplit, List.take_append_drop]
    generalize s.drop (rawTextLength name s) = behind at hs
    rw [hs, List.drop_left]
    exact List.prefix_append t _
  have hfalse := (rawTextLength_spec name s).1 a.length hlength
  rw [closesRawText_of_isPrefix hclose hprefix] at hfalse
  cases hfalse

/-! ## What is read there -/

/-- The token is the closing tag of an element, in either case. -/
def Token.Closes (name : String) (t : Token) : Prop :=
  t.isClosingTag = true ∧ t.value.toList.map Char.toLower = name.toList.map Char.toLower

/-- The token is a text that starts with a closing tag in which a lookalike stands for a letter. -/
def Token.Mimics (name : String) (t : Token) : Prop :=
  t.kind = .text ∧ ∃ word gap, Spells name.toList word ∧ (∃ c ∈ word, isLookalike c = true) ∧
    (∀ c ∈ gap, isTagSpace c = true) ∧ closingText word gap <+: t.raw.toList

section

variable {name word gap rest : List Char} (hname : ∀ d ∈ name, isTagChar d = true)
  (hword : Spells name word) (hgap : ∀ d ∈ gap, isTagSpace d = true)

include hname hword in
/-- The characters of a spelling. -/
theorem cases_of_mem_spells : ∀ d ∈ word, isTagChar d = true ∨ isLookalike d = true := by
  intro d hd
  obtain ⟨i, hi, rfl⟩ := List.mem_iff_getElem.1 hd
  have hlt : i < name.length := hword.length_eq ▸ hi
  rcases matchesLetter_cases (hword.get hlt hi) with hlower | hlookalike
  · left
    rw [← isTagChar_toLower]
    refine (congrArg isTagChar hlower).trans ?_
    rw [isTagChar_toLower]
    exact hname _ (List.getElem_mem hlt)
  · exact .inr hlookalike

include hname hword in
theorem notMem_of_spells {e : Char} (htag : isTagChar e = false)
    (hlookalike : isLookalike e = false) : e ∉ word := by
  intro he
  rcases cases_of_mem_spells hname hword e he with h | h
  · exact Bool.false_ne_true (htag.symm.trans h)
  · exact Bool.false_ne_true (hlookalike.symm.trans h)

include hname hword in
/-- The first character of a spelling that is not one of a tag name is a lookalike. -/
theorem exists_lookalike (hlook : ∃ d ∈ word, isLookalike d = true) :
    ∃ a d b, word = a ++ d :: b ∧ (∀ e ∈ a, isTagChar e = true) ∧ isLookalike d = true := by
  have hdrop : word.dropWhile isTagChar ≠ [] := by
    intro hnil
    obtain ⟨d, hd, hlookalike⟩ := hlook
    have htrue := List.dropWhile_eq_nil_iff.1 hnil d hd
    rw [isTagChar_of_isLookalike hlookalike] at htrue
    cases htrue
  obtain ⟨d, b, hb⟩ := List.exists_cons_of_ne_nil hdrop
  have hsplit : word = word.takeWhile isTagChar ++ d :: b := by
    rw [← hb, List.takeWhile_append_dropWhile]
  have hd : isTagChar d = false := by
    have hhead := List.head?_dropWhile_not isTagChar word
    rw [hb] at hhead
    simpa using hhead
  refine ⟨_, d, b, hsplit, List.all_eq_true.1 List.all_takeWhile, ?_⟩
  rcases cases_of_mem_spells hname hword d (by rw [hsplit]; simp) with h | h
  · exact absurd (hd.symm.trans h) Bool.false_ne_true
  · exact h

include hname hword hgap in
/-- A spelling without lookalikes is read as a closing tag. -/
theorem closingTag?_plain (hne : name ≠ []) (hplain : ∀ d ∈ word, isLookalike d = false) :
    ∃ n, closingTag? (closingText word gap ++ rest) = some (word, n) := by
  have hlower := lower_of_spells hword hplain
  have hwhile : (word ++ (gap ++ '>' :: rest)).takeWhile isTagChar = word :=
    takeWhile_append_stop (isTagChar_of_lower hlower hname) fun d hd => by
      cases gap with
      | nil => cases hd; decide
      | cons e es =>
        cases hd
        have he := hgap d List.mem_cons_self
        simp only [isTagSpace, Bool.or_eq_true, beq_iff_eq] at he
        rcases he with (rfl | rfl) | rfl <;> decide
  have hspace : (gap ++ '>' :: rest).takeWhile isTagSpace = gap :=
    takeWhile_append_stop hgap fun d hd => by cases hd; decide
  have htext : closingText word gap ++ rest = '<' :: '/' :: (word ++ (gap ++ '>' :: rest)) := by
    simp [closingText]
  have hnonempty : word ≠ [] := by
    rintro rfl
    exact hne (List.map_eq_nil_iff.1 hlower.symm)
  obtain ⟨d, ds, rfl⟩ := List.exists_cons_of_ne_nil hnonempty
  refine ⟨2 + (d :: ds).length + gap.length + 1, ?_⟩
  rw [htext, closingTag?]
  simp only [hwhile, List.drop_left, hspace, ← List.drop_drop]

include hname hword in
/-- A spelling with a lookalike is read as no closing tag: the name ends in front of the lookalike,
and no bracket stands there. -/
theorem closingTag?_mimicked (hlook : ∃ d ∈ word, isLookalike d = true) :
    closingTag? (closingText word gap ++ rest) = none := by
  obtain ⟨a, d, b, rfl, ha, hd⟩ := exists_lookalike hname hword hlook
  have hnone : isTagSpace d = false ∧ d ≠ '>' := by
    simp only [isLookalike, Bool.or_eq_true, beq_iff_eq] at hd
    rcases hd with (rfl | rfl) | rfl <;> decide
  have htext : closingText (a ++ d :: b) gap ++ rest =
      '<' :: '/' :: (a ++ d :: (b ++ (gap ++ '>' :: rest))) := by
    simp [closingText]
  have hwhile : (a ++ d :: (b ++ (gap ++ '>' :: rest))).takeWhile isTagChar = a :=
    takeWhile_append_stop ha fun e he => by cases he; exact isTagChar_of_isLookalike hd
  rw [htext, closingTag?]
  simp only [hwhile, List.drop_left, List.takeWhile_cons, hnone.1, Bool.false_eq_true, if_false,
    List.length_nil, Nat.add_zero]
  split
  · rename_i heq
    exact absurd (List.cons.inj heq).1 hnone.2
  · rfl

include hname hword hgap in
/-- Ordinary text takes a closing tag with it. -/
theorem closingText_isPrefix : closingText word gap <+:
    (closingText word gap ++ rest).take (textLength (closingText word gap ++ rest)) := by
  have hplain : ∀ d ∈ '/' :: (word ++ (gap ++ ['>'])), (d != '<' && d != '{') = true := by
    have hspace : ∀ d ∈ gap, (d != '<' && d != '{') = true := by
      intro d hd
      have hd := hgap d hd
      simp only [isTagSpace, Bool.or_eq_true, beq_iff_eq] at hd
      rcases hd with (rfl | rfl) | rfl <;> decide
    have hletters : ∀ d ∈ word, (d != '<' && d != '{') = true := by
      intro d hd
      rw [Bool.and_eq_true, bne_iff_ne, bne_iff_ne]
      constructor
      · rintro rfl
        exact notMem_of_spells hname hword rfl rfl hd
      · rintro rfl
        exact notMem_of_spells hname hword rfl rfl hd
    rw [List.forall_mem_cons, List.forall_mem_append, List.forall_mem_append]
    exact ⟨rfl, hletters, hspace, by simp⟩
  have hlength : (closingText word gap).length ≤ textLength (closingText word gap ++ rest) := by
    have hdrop : (closingText word gap ++ rest).drop 1 = '/' :: (word ++ (gap ++ ['>'])) ++ rest :=
      rfl
    rw [textLength, hdrop, List.takeWhile_append_of_pos hplain, List.length_append, closingText,
      List.length_cons]
    omega
  exact List.prefix_take_iff.2 ⟨List.prefix_append _ _, hlength⟩

end

/-- What is read where the search for a closing tag ends. -/
theorem contentStep_closesRawText (hne : name ≠ []) (hname : ∀ d ∈ name, isTagChar d = true)
    (h : closesRawText name c.rest = true) :
    ∃ t ∈ (contentStep c).tokens.head?,
      t.Closes (String.ofList name) ∨ t.Mimics (String.ofList name) := by
  obtain ⟨word, gap, rest, hword, hgap, hc⟩ := closesRawText_iff.1 h
  have hrest : c.rest = '<' :: '/' :: (word ++ (gap ++ '>' :: rest)) := by
    rw [hc]
    simp [closingText]
  by_cases hlook : ∃ d ∈ word, isLookalike d = true
  · -- no closing tag is read here, and the whole of it goes into a text
    have htag : closingTag? (closingText word gap ++ rest) = none :=
      closingTag?_mimicked hname hword hlook
    have hstep : contentStep c = textStep c := by
      rw [← hc, hrest] at htag
      simp [contentStep, hrest, htag]
    rw [hstep]
    refine ⟨_, rfl, .inr ⟨rfl, word, gap, ?_, hlook, hgap, ?_⟩⟩
    · rwa [String.toList_ofList]
    · have htext : closingText word gap <+:
          (closingText word gap ++ rest).take (textLength (closingText word gap ++ rest)) :=
        closingText_isPrefix hname hword hgap
      rw [← hc] at htext
      simpa [Cursor.slice, Cursor.token] using htext
  · have hplain : ∀ d ∈ word, isLookalike d = false := fun d hd =>
      Bool.eq_false_of_not_eq_true fun hd' => hlook ⟨d, hd, hd'⟩
    obtain ⟨n, htag⟩ : ∃ n, closingTag? (closingText word gap ++ rest) = some (word, n) :=
      closingTag?_plain hname hword hgap hne hplain
    rw [← hc] at htag
    have hstep : contentStep c = ⟨[c.token .tagClose word n false], n, .content⟩ := by
      rw [hrest] at htag
      simp [contentStep, hrest, htag]
    rw [hstep]
    refine ⟨_, rfl, .inl ⟨?_, ?_⟩⟩
    · simp [Token.isClosingTag, Cursor.token, closingTag?_name htag]
    · simpa [Cursor.token] using lower_of_spells hword hplain

/-! ## What follows the opening tag -/

/-- What follows the opening tag of a raw-text element: at most one text, in which there is no
closing tag, and then the closing tag, the end, or a closing tag with a lookalike. -/
def RawTextEnds (name : String) (ts : List Token) : Prop :=
  ∃ content rest, ts = content ++ rest ∧ content.length ≤ 1 ∧
    (∀ t ∈ content, t.kind = .text ∧
      ∀ s, s <:+: t.raw.toList → closesRawText name.toList s = false) ∧
    ∃ t ∈ rest.head?, t.Closes name ∨ t.kind = .eof ∨ t.Mimics name

/-- **Raw text is one token up to its closing tag.** -/
theorem rawTextEnds_lexFrom (hne : name ≠ []) (hname : ∀ d ∈ name, isTagChar d = true) {d : Cursor}
    (hd : d.rest = c.rest.drop (rawTextLength name c.rest)) :
    RawTextEnds (String.ofList name)
      ((if rawTextLength name c.rest == 0 then [] else [c.slice .text (rawTextLength name c.rest)])
        ++ lexFrom .content d) := by
  refine ⟨_, _, rfl, by split <;> simp, fun t ht => ?_, ?_⟩
  · split at ht
    · cases ht
    · rw [List.mem_singleton.1 ht]
      refine ⟨rfl, fun s hs => ?_⟩
      rw [String.toList_ofList]
      exact closesRawText_of_infix (by simpa [Cursor.slice, Cursor.token] using hs)
  · -- the search ends at the end of the source or where a closing tag is seen
    rcases (rawTextLength_spec name c.rest).2 with hnil | hclose
    · rw [← hd] at hnil
      rw [lexFrom, dif_pos hnil]
      exact ⟨_, rfl, .inr (.inl rfl)⟩
    · rw [← hd] at hclose
      have hrest : d.rest ≠ [] := by
        intro hnil
        rw [hnil] at hclose
        cases hclose
      obtain ⟨t, ht, hends⟩ := contentStep_closesRawText hne hname hclose
      refine ⟨t, ?_, hends.imp_right .inr⟩
      rw [lexFrom, dif_neg hrest, List.head?_append]
      exact Option.mem_def.2 (by rw [Mode.step, Option.mem_def.1 ht]; rfl)

/-! ## Whole runs -/

/-- The name of the tag that was opened last, behind a token. -/
def openedBehind (opened : Option String) (t : Token) : Option String :=
  if t.kind = .tagOpen then some t.value else opened

/-- The name of the tag that was opened last among some tokens. -/
def lastOpened (ts : List Token) : Option String :=
  ts.foldl openedBehind none

/-- What follows the opening tags of raw-text elements among some tokens is as it should be;
`opened` is the name of the tag that was opened last before them. -/
def Swallows (opened : Option String) : List Token → Prop
  | [] => True
  | t :: ts =>
    (t.endsOpenTag = true → ∀ name ∈ opened, isRawTextElement name = true → RawTextEnds name ts) ∧
      Swallows (openedBehind opened t) ts

theorem Swallows.append {tokens ts : List Token}
    (htokens : ∀ t ∈ tokens, t.endsOpenTag = false ∧ t.kind ≠ .tagOpen)
    (hts : Swallows opened ts) : Swallows opened (tokens ++ ts) := by
  induction tokens with
  | nil => exact hts
  | cons t tokens ih =>
    rw [List.forall_mem_cons] at htokens
    obtain ⟨⟨hends, hkind⟩, htokens⟩ := htokens
    refine ⟨fun h => absurd (hends.symm.trans h) Bool.false_ne_true, ?_⟩
    rw [openedBehind, if_neg hkind]
    exact ih htokens

/-- The rule at one opening tag. -/
theorem Swallows.rawTextEnds {before after : List Token} {t : Token}
    (h : Swallows opened (before ++ t :: after)) (ht : t.endsOpenTag = true) {name : String}
    (hname : before.foldl openedBehind opened = some name)
    (hraw : isRawTextElement name = true) : RawTextEnds name after := by
  induction before generalizing opened with
  | nil => exact h.1 ht name hname hraw
  | cons u before ih => exact ih h.2 hname

/-- The lexer stands in the tag that was opened last, or in none. -/
def Mode.Opened (opened : Option String) : Mode → Prop
  | .content => True
  | .tag name => opened = some (String.ofList name) ∧ name ≠ [] ∧ ∀ c ∈ name, isTagChar c = true

/-- A step between tags takes one token, which does not end an opening tag but may start one. -/
theorem contentStep_opened (c : Cursor) : ∃ t n mode, contentStep c = ⟨[t], n, mode⟩ ∧
    t.endsOpenTag = false ∧ ∀ opened, mode.Opened (openedBehind opened t) := by
  rw [contentStep]
  split
  · exact ⟨_, _, _, rfl, rfl, fun _ => trivial⟩
  · split
    · rename_i name n htag
      refine ⟨_, _, _, rfl, ?_, fun _ => trivial⟩
      simp [Token.endsOpenTag, Cursor.token, closingTag?_name htag]
    · exact ⟨_, _, _, rfl, rfl, fun _ => trivial⟩
  · rename_i cs hslash hrest
    dsimp only
    split
    · rename_i hname
      refine ⟨_, _, _, rfl, rfl, fun opened => ⟨rfl, ?_, List.all_eq_true.1 List.all_takeWhile⟩⟩
      simpa using hname
    · split
      · exact ⟨_, _, _, rfl, rfl, fun _ => trivial⟩
      · exact ⟨_, _, _, rfl, rfl, fun _ => trivial⟩
  · exact ⟨_, _, _, rfl, rfl, fun _ => trivial⟩

theorem attributeTokens_kind (c : Cursor) :
    ∀ t ∈ (attributeTokens c).1, t.kind = .attrName ∨ t.kind = .attrValue := by
  rw [attributeTokens]
  dsimp only
  split
  · rw [List.forall_mem_cons, List.forall_mem_singleton]
    exact ⟨.inl rfl, .inr (valueToken_kind _)⟩
  · rw [List.forall_mem_singleton]
    exact .inl rfl

/-- A step in an opening tag stays there, or ends it. -/
theorem tagStep_cases (name : List Char) (c : Cursor) :
    ((∀ t ∈ (tagStep name c).tokens, t.endsOpenTag = false ∧ t.kind ≠ .tagOpen) ∧
      ((tagStep name c).mode = .tag name ∨ (tagStep name c).mode = .content)) ∨
    ∃ space cs, (c.advance space).rest = '>' :: cs ∧ ∀ inner,
      inner = (if isRawTextElement (String.ofList name) then rawTextLength name cs else 0) →
      tagStep name c = ⟨(c.advance space).slice .tagClose 1 ::
        (if inner == 0 then [] else [((c.advance space).advance 1).slice .text inner]),
        space + 1 + inner, .content⟩ := by
  rw [tagStep]
  dsimp only
  split
  · exact .inl ⟨by simp, .inl rfl⟩
  · refine .inl ⟨?_, .inr rfl⟩
    rw [List.forall_mem_singleton]
    exact ⟨rfl, by simp [Cursor.slice, Cursor.token]⟩
  · rename_i cs hrest
    refine .inr ⟨_, cs, hrest, ?_⟩
    rintro inner rfl
    rfl
  · exact .inl ⟨by simp, .inl rfl⟩
  · split
    · refine .inl ⟨fun t ht => ?_, .inl rfl⟩
      rcases attributeTokens_kind _ t ht with hkind | hkind <;> simp [Token.endsOpenTag, hkind]
    · exact .inl ⟨by simp, .inl rfl⟩

/-- **Every raw-text element of a run is swallowed up to its closing tag**, by induction on what is
left of the text. -/
theorem lexFrom_swallows {mode : Mode}
    (h : mode.Opened opened) : Swallows opened (lexFrom mode c) := by
  fun_induction lexFrom mode c generalizing opened with
  | case1 mode c hrest =>
    exact ⟨fun hends => absurd hends Bool.false_ne_true, trivial⟩
  | case2 mode c hne step =>
    rename_i ih
    cases mode with
    | content =>
      obtain ⟨t, n, mode, hstep, hends, hmode⟩ := contentStep_opened c
      replace hstep : step = ⟨[t], n, mode⟩ := hstep
      rw [hstep] at ih ⊢
      exact ⟨fun h => absurd (hends.symm.trans h) Bool.false_ne_true, ih (hmode opened)⟩
    | tag name =>
      obtain ⟨rfl, hnonempty, hname⟩ := h
      rcases tagStep_cases name c with ⟨htokens, hmode⟩ | ⟨space, cs, hrest, hstep⟩
      · refine .append htokens (ih ?_)
        rcases hmode with hmode | hmode
        · rw [show step.mode = .tag name from hmode]
          exact ⟨rfl, hnonempty, hname⟩
        · rw [show step.mode = .content from hmode]
          trivial
      · generalize hinner : (if isRawTextElement (String.ofList name) then rawTextLength name cs
          else 0) = inner at hstep
        replace hstep : step = _ := hstep inner rfl
        rw [hstep] at ih ⊢
        refine ⟨fun _ found hfound hraw => ?_, .append (fun t ht => ?_) (ih trivial)⟩
        · cases hfound
          rw [if_pos hraw] at hinner
          subst hinner
          have hbehind : ((c.advance space).advance 1).rest = cs := by
            rw [Cursor.advance, hrest]
            rfl
          have hlength : max (space + 1 + rawTextLength name cs) 1 =
              space + 1 + rawTextLength name cs := by omega
          have hends := rawTextEnds_lexFrom hnonempty hname (c := (c.advance space).advance 1)
            (d := c.advance (max (space + 1 + rawTextLength name cs) 1)) (by
              rw [hbehind, hlength]
              simp only [Cursor.advance, List.drop_drop] at hbehind ⊢
              rw [← hbehind, List.drop_drop])
          rw [hbehind] at hends
          exact hends
        · split at ht
          · cases ht
          · rw [List.mem_singleton.1 ht]
            exact ⟨rfl, by simp [Cursor.slice, Cursor.token]⟩

theorem lex_swallows (s : List Char) : Swallows none (lex s) := by
  rw [lex]
  split
  · rename_i t n hfront
    obtain ⟨hkind, -⟩ := frontmatterStep?_kind hfront
    have hplain : ∀ t' ∈ [t], t'.endsOpenTag = false ∧ t'.kind ≠ .tagOpen := by
      rw [List.forall_mem_singleton]
      simp [Token.endsOpenTag, hkind]
    exact Swallows.append hplain (lexFrom_swallows trivial)
  · exact lexFrom_swallows trivial

/-- **Raw-text elements swallow everything up to their closing tags.**  Whatever the source, behind
the `>` of an opening tag that names a raw-text element there is at most one token of text, in which
there is no closing tag of the element, and then its closing tag or the end; unless what stands
there is a closing tag with a letter beyond ASCII, which the search for the closing tag takes for
one and which is read as text. -/
theorem tokenize_swallows {source : String} {before after : List Token} {t : Token} {name : String}
    (h : tokenize source = before ++ t :: after) (ht : t.endsOpenTag = true)
    (hname : lastOpened before = some name) (hraw : isRawTextElement name = true) :
    RawTextEnds name after := by
  have hswallows := lex_swallows (unifyNewlines source.toList)
  rw [show lex (unifyNewlines source.toList) = _ from h] at hswallows
  exact hswallows.rawTextEnds ht hname hraw

/-- A script in capitals that reads like markup, with a blank in its closing tag. -/
def shoutedScript : String :=
  "<SCRIPT a='>'>if (x < y) \x7b '<p>' \x7d</Script\n>\x7bz\x7d"

theorem tokenize_swallows_shouted : ∃ before t after,
    tokenize shoutedScript = before ++ t :: after ∧ t.endsOpenTag = true ∧
      lastOpened before = some "SCRIPT" ∧ isRawTextElement "SCRIPT" = true ∧
      RawTextEnds "SCRIPT" after ∧
      after.map (fun t => (t.kind, t.value)) = [(TokenKind.text, "if (x < y) \x7b '<p>' \x7d"),
        (TokenKind.tagClose, "Script"), (TokenKind.expression, "z"), (TokenKind.eof, "")] := by
  have htokens : tokenize shoutedScript = (tokenize shoutedScript).take 3 ++
      (tokenize shoutedScript)[3]! :: (tokenize shoutedScript).drop 4 := by
    decide +kernel
  have hends : (tokenize shoutedScript)[3]!.endsOpenTag = true := by
    decide +kernel
  have hname : lastOpened ((tokenize shoutedScript).take 3) = some "SCRIPT" := by
    decide +kernel
  have hraw : isRawTextElement "SCRIPT" = true := by
    decide +kernel
  exact ⟨_, _, _, htokens, hends, hname, hraw, tokenize_swallows htokens hends hname hraw,
    by decide +kernel⟩

/-- A long s in the closing tag: behind the text of the element there is a second text, and a
placeholder that is read as one. -/
theorem tokenize_swallows_mimicked :
    (tokenize "<script>a</ſcript>\x7bb\x7d</script>").map (fun t => (t.kind, t.value)) =
      [(TokenKind.tagOpen, "script"), (TokenKind.tagClose, ">"), (TokenKind.text, "a"),
        (TokenKind.text, "</ſcript>"), (TokenKind.expression, "b"), (TokenKind.tagClose, "script"),
        (TokenKind.eof, "")] := by
  decide +kernel

end Markup
end Atoll
