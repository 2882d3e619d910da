import Atoll.Proofs.Enclosure
import Atoll.Script.Nesting

/-!
# An expression has no comma at the top level of a script

A script is cut at the commas that stand outside brackets and quotes, by a reader that knows nothing
of expressions.  Here this reader is followed through the lexemes of an expression.

* `Script.topComma` — whether the reader finds a comma in what is ahead of it.
* `Script.topComma_quotedBody`, `Script.topComma_pieces` — it passes over a string and a template as
  the lexer does.  In a template that needs the code between the texts to be free of backticks: the
  lexer counts braces there, and the reader takes the first backtick for the end.
* `Script.topComma_scan` — hence it takes one lexeme as the lexer does.
* `Script.topComma_lexFrom` — and, by induction on the lexemes, **it finds a comma where the tokens
  have one outside brackets**.
* `Script.topComma_of_parse` — so it finds none in an expression.
-/

set_option autoImplicit false

namespace Atoll

namespace Expr

@[simp] theorem Pieces.snd_push (c : Char) (p : Pieces) : (p.push c).2 = p.2 := by
  obtain ⟨ps, rest⟩ := p
  cases ps <;> rfl

/-- No code in the lexeme has a backtick. -/
def Lexeme.hasPlainCode : Lexeme → Bool
  | .template _ parts => parts.all fun p => !p.1.toList.contains '\x60'
  | _ => true

/-- Whether the source can be cut into tokens, and the code in its templates has no templates in
turn. -/
def hasPlainTemplates (source : String) : Bool :=
  match lex source with
  | .ok ts => ts.all fun t => t.lexeme.hasPlainCode
  | .error _ => false

end Expr

namespace Script

open Text
open Atoll.Expr

variable {body s cs rest : List Char} {c : Char} {n : Nat} {mode : TemplateMode} {source : String}
  {i : Inside} {l : Lexeme}

/-! ## Commas ahead of the reader -/

/-- Whether the reader finds a comma outside all brackets and quotes. -/
def topComma (n : Nesting) (s : List Char) : Bool :=
  (marked n s).any fun (c, top) => top && c == ','

theorem topComma_cons (n : Nesting) (c : Char) (cs : List Char) :
    topComma n (c :: cs) = ((n.atTop c && c == ',') || topComma (n.next c) cs) := by
  rw [topComma, marked, List.any_cons]
  rfl

theorem findTop?_eq_none (h : topComma .outermost s = false) : findTop? ',' s = none :=
  List.findIdx?_eq_none_iff.2 fun x hx => by simpa using List.any_eq_false.1 h x hx

/-- What is found in a text is found when the text goes on. -/
theorem topComma_of_append {n : Nesting} {t : List Char} (h : topComma n (s ++ t) = false) :
    topComma n s = false := by
  induction s generalizing n with
  | nil => rfl
  | cons c cs ih =>
    rw [List.cons_append, topComma_cons, Bool.or_eq_false_iff] at h
    rw [topComma_cons, h.1, ih h.2, Bool.or_false]

/-- A character that means nothing to the reader in code. -/
def isOrdinary (c : Char) : Bool :=
  !(isQuote c || isOpening c || isClosing c || c == ',')

theorem topComma_ordinary (h : isOrdinary c = true) (depth : Nat) (cs : List Char) :
    topComma ⟨depth, .code⟩ (c :: cs) = topComma ⟨depth, .code⟩ cs := by
  simp only [isOrdinary, Bool.not_eq_true', Bool.or_eq_false_iff] at h
  obtain ⟨⟨⟨hquote, hopening⟩, hclosing⟩, hcomma⟩ := h
  rw [topComma_cons]
  simp [Nesting.next, Inside.next, hquote, hopening, hclosing, hcomma]

theorem topComma_append {w : List Char} (h : ∀ c ∈ w, isOrdinary c = true) (depth : Nat)
    (rest : List Char) : topComma ⟨depth, .code⟩ (w ++ rest) = topComma ⟨depth, .code⟩ rest := by
  induction w with
  | nil => rfl
  | cons c cs ih =>
    rw [List.forall_mem_cons] at h
    rw [List.cons_append, topComma_ordinary h.1, ih h.2]

/-- The reader passes over a stretch of ordinary characters. -/
theorem topComma_take (hn : 0 < n) (h : ∀ d ∈ (c :: cs).take n, isOrdinary d = true) (depth : Nat) :
    topComma ⟨depth, .code⟩ (c :: cs) = topComma ⟨depth, .code⟩ (cs.drop (n - 1)) := by
  obtain ⟨k, rfl⟩ : ∃ k, n = k + 1 := ⟨n - 1, by omega⟩
  calc topComma ⟨depth, .code⟩ (c :: cs)
      = topComma ⟨depth, .code⟩ ((c :: cs).take (k + 1) ++ (c :: cs).drop (k + 1)) := by
        rw [List.take_append_drop]
    _ = topComma ⟨depth, .code⟩ (cs.drop (k + 1 - 1)) := topComma_append h depth _

/-! ## Strings -/

/-- In a quoted text the reader finds nothing. -/
theorem topComma_inside (hi : i ≠ .code) (depth : Nat) (c : Char) (cs : List Char) :
    topComma ⟨depth, i⟩ (c :: cs) = topComma ⟨depth, i.next c⟩ cs := by
  have hnone : (Nesting.atTop ⟨depth, i⟩ c && c == ',') = false := by
    by_cases hc : c = ','
    · subst hc
      cases i <;> simp_all [Nesting.atTop, Inside.breaksOff]
    · simp [hc]
  have hnext : Nesting.next ⟨depth, i⟩ c = ⟨depth, i.next c⟩ := by
    have hi : (i == .code) = false := beq_eq_false_iff_ne.2 hi
    simp [Nesting.next, hi]
  rw [topComma_cons, hnone, hnext, Bool.false_or]

theorem topComma_quote {quote : Char} (h : isQuote quote = true) (depth : Nat) (s : List Char) :
    topComma ⟨depth, .code⟩ (quote :: s) = topComma ⟨depth, .quoted quote⟩ s := by
  have hne : (quote == ',') = false := by
    rw [beq_eq_false_iff_ne]
    rintro rfl
    cases h
  have hbracket : isOpening quote = false ∧ isClosing quote = false := by
    simp only [isQuote, Bool.or_eq_true, beq_iff_eq] at h
    rcases h with (rfl | rfl) | rfl <;> decide
  rw [topComma_cons]
  simp [Nesting.next, Inside.next, h, hne, hbracket]

theorem topComma_quotedBody {quote : Char} (hquote : quote ≠ '\\')
    (h : quotedBody? quote s = some body) (depth : Nat) :
    topComma ⟨depth, .quoted quote⟩ s = topComma ⟨depth, .code⟩ (s.drop (body.length + 1)) := by
  have hquoted : Inside.quoted quote ≠ .code := Inside.noConfusion
  fun_induction quotedBody? quote s generalizing body with
  | case1 => cases h
  | case2 c cs _ ih =>
    obtain ⟨inner, hinner, rfl⟩ := Option.map_eq_some_iff.1 h
    have hescaped : Inside.escaped quote ≠ .code := Inside.noConfusion
    rw [topComma_inside hquoted, topComma_inside (by exact hescaped)]
    exact ih hinner
  | case3 c cs _ hc =>
    cases h
    obtain rfl : c = quote := eq_of_beq hc
    rw [topComma_inside hquoted]
    simp [Inside.next, hquote]
  | case4 => cases h
  | case5 c cs _ hc hbreak ih =>
    obtain ⟨inner, hinner, rfl⟩ := Option.map_eq_some_iff.1 h
    have hnext : (Inside.quoted quote).next c = .quoted quote := by
      simp_all [Inside.next, Inside.breaksOff]
    rw [topComma_inside hquoted, hnext]
    exact ih hinner
  | case6 => cases h

/-! ## Templates -/

/-- No piece of code has a backtick; code and text take turns, and `code` says which comes first. -/
def PlainCodes : Bool → List (List Char) → Prop
  | _, [] => True
  | true, p :: more => '\x60' ∉ p ∧ PlainCodes false more
  | false, _ :: more => PlainCodes true more

/-- Whether a template scan stands in code. -/
def inCode : TemplateMode → Bool
  | .text => false
  | .code _ => true

theorem PlainCodes.of_push {code : Bool} {p : Pieces}
    (h : PlainCodes code (p.push c).1) : (code = true → c ≠ '\x60') ∧ PlainCodes code p.1 := by
  obtain ⟨ps, rest⟩ := p
  cases ps with
  | nil => cases code <;> simp_all [Pieces.push, PlainCodes, eq_comm]
  | cons p more => cases code <;> simp_all [Pieces.push, PlainCodes, eq_comm]

/-- The reader stands between backticks, in code maybe behind a backslash. -/
def InTemplate (mode : TemplateMode) (i : Inside) : Prop :=
  i = .quoted '\x60' ∨ inCode mode = true ∧ i = .escaped '\x60'

theorem InTemplate.ne_code (h : InTemplate mode i) : i ≠ .code := by
  rcases h with rfl | ⟨-, rfl⟩ <;> exact Inside.noConfusion

/-- In a template, the reader goes on until a backtick. -/
theorem InTemplate.next {mode' : TemplateMode} (h : InTemplate mode i) (htick : c ≠ '\x60')
    (hslash : c = '\\' → inCode mode' = true) : InTemplate mode' (i.next c) := by
  rcases h with rfl | ⟨-, rfl⟩
  · by_cases hc : c = '\\'
    · exact .inr ⟨hslash hc, by simp [Inside.next, hc]⟩
    · exact .inl (by simp [Inside.next, Inside.breaksOff, hc, htick])
  · exact .inl rfl

/-- **The reader finds nothing in a template**, and comes out of it where the lexer does. -/
theorem topComma_pieces (hrest : (pieces mode s).2 = some rest)
    (hplain : PlainCodes (inCode mode) (pieces mode s).1) (hi : InTemplate mode i) (depth : Nat) :
    topComma ⟨depth, i⟩ s = topComma ⟨depth, .code⟩ rest := by
  fun_induction pieces mode s generalizing i with
  | case1 cs =>
    cases hrest
    obtain rfl : i = .quoted '\x60' := hi.resolve_right fun h => Bool.false_ne_true h.1
    rw [topComma_inside Inside.noConfusion]
    rfl
  | case2 c cs ih =>
    obtain rfl : i = .quoted '\x60' := hi.resolve_right fun h => Bool.false_ne_true h.1
    rw [Pieces.snd_push, Pieces.snd_push] at hrest
    have hescaped : (Inside.quoted '\x60').next '\\' ≠ .code := Inside.noConfusion
    rw [topComma_inside Inside.noConfusion, topComma_inside hescaped]
    exact ih hrest hplain.of_push.2.of_push.2 (.inl rfl)
  | case3 cs ih =>
    obtain rfl : i = .quoted '\x60' := hi.resolve_right fun h => Bool.false_ne_true h.1
    have hquoted : (Inside.quoted '\x60').next '$' ≠ .code := Inside.noConfusion
    rw [topComma_inside Inside.noConfusion, topComma_inside hquoted]
    exact ih hrest hplain (.inl rfl)
  | case4 cs ih =>
    rw [topComma_inside hi.ne_code]
    exact ih hrest hplain.2 (hi.next (by decide) (by decide))
  | case5 inner cs ih =>
    rw [Pieces.snd_push] at hrest
    rw [topComma_inside hi.ne_code]
    exact ih hrest hplain.of_push.2 (hi.next (by decide) fun _ => rfl)
  | case6 inner cs ih =>
    rw [Pieces.snd_push] at hrest
    rw [topComma_inside hi.ne_code]
    exact ih hrest hplain.of_push.2 (hi.next (by decide) fun _ => rfl)
  | case7 mode c cs htick hescape _ _ _ _ ih =>
    rw [Pieces.snd_push] at hrest
    obtain ⟨hcode, hplain⟩ := PlainCodes.of_push hplain
    rw [topComma_inside hi.ne_code]
    cases mode with
    | text =>
      -- a backslash in front of nothing would leave the template open
      have hslash : c ≠ '\\' := by
        rintro rfl
        cases cs with
        | nil => cases hrest
        | cons d ds => exact hescape d ds rfl rfl rfl
      exact ih hrest hplain (hi.next (fun h => htick rfl h) fun h => absurd h hslash)
    | code inner => exact ih hrest hplain (hi.next (hcode rfl) fun _ => rfl)
  | case8 => cases hrest

/-- Behind the first piece of a template that is closed, code and text come in pairs. -/
theorem pieces_paired (hrest : (pieces mode s).2 = some rest) :
    ∃ p more, (pieces mode s).1 = p :: more ∧ (more.length % 2 = 1 ↔ inCode mode = true) := by
  have hpush : ∀ {q : Pieces} {b : Bool} (c : Char),
      (∃ p more, q.1 = p :: more ∧ (more.length % 2 = 1 ↔ b = true)) →
      ∃ p more, (q.push c).1 = p :: more ∧ (more.length % 2 = 1 ↔ b = true) := by
    rintro ⟨ps, r⟩ b c ⟨p, more, rfl, hmore⟩
    exact ⟨c :: p, more, rfl, hmore⟩
  fun_induction pieces mode s with
  | case1 cs => exact ⟨[], [], rfl, by decide⟩
  | case2 c cs ih =>
    rw [Pieces.snd_push, Pieces.snd_push] at hrest
    exact hpush '\\' (hpush c (ih hrest))
  | case3 cs ih =>
    obtain ⟨p, more, hp, hmore⟩ := ih hrest
    refine ⟨[], p :: more, congrArg ([] :: ·) hp, ?_⟩
    simp [inCode] at hmore ⊢
    omega
  | case4 cs ih =>
    obtain ⟨p, more, hp, hmore⟩ := ih hrest
    refine ⟨[], p :: more, congrArg ([] :: ·) hp, ?_⟩
    simp [inCode] at hmore ⊢
    omega
  | case5 inner cs ih =>
    rw [Pieces.snd_push] at hrest
    exact hpush '}' (ih hrest)
  | case6 inner cs ih =>
    rw [Pieces.snd_push] at hrest
    exact hpush '{' (ih hrest)
  | case7 mode c cs _ _ _ _ _ _ ih =>
    rw [Pieces.snd_push] at hrest
    exact hpush c (ih hrest)
  | case8 => cases hrest

/-- The code of a template without backticks, as the pieces have it. -/
theorem plainCodes_of_templateParts {ps : List (List Char)} (heven : ps.length % 2 = 0) :
    Ends (fun _ => True)
      (fun parts => parts.all (fun p => !p.1.toList.contains '\x60') = true → PlainCodes true ps)
      (templateParts ps) := by
  fun_induction templateParts ps with
  | case1 code text more ih =>
    refine Ends.bind (R := fun _ => True) (by cases unescape text <;> trivial) fun text _ => ?_
    have heven : more.length % 2 = 0 := by
      rw [List.length_cons, List.length_cons] at heven
      omega
    refine (ih heven).bind fun parts hparts hall => ?_
    rw [List.all_cons, Bool.and_eq_true] at hall
    exact ⟨by simpa using hall.1, hparts hall.2⟩
  | case2 ps hpair =>
    intro _
    rcases ps with _ | ⟨code, _ | ⟨text, more⟩⟩
    · exact trivial
    · cases heven
    · exact absurd rfl (hpair code text more)

theorem pieces_suffix (hrest : (pieces mode s).2 = some rest) : rest <:+ s := by
  fun_induction pieces mode s with
  | case1 cs =>
    cases hrest
    exact List.suffix_cons _ _
  | case2 c cs ih =>
    rw [Pieces.snd_push, Pieces.snd_push] at hrest
    exact ((ih hrest).trans (List.suffix_cons _ _)).trans (List.suffix_cons _ _)
  | case3 cs ih => exact ((ih hrest).trans (List.suffix_cons _ _)).trans (List.suffix_cons _ _)
  | case4 cs ih => exact (ih hrest).trans (List.suffix_cons _ _)
  | case5 inner cs ih | case6 inner cs ih | case7 mode c cs _ _ _ _ _ _ ih =>
    rw [Pieces.snd_push] at hrest
    exact (ih hrest).trans (List.suffix_cons _ _)
  | case8 => cases hrest

/-! ## Lexemes -/

/-- The reader takes a lexeme as the lexer does, which takes `n` characters for it. -/
def TakesAlike (c : Char) (cs : List Char) (l : Lexeme) (n : Nat) : Prop :=
  ∀ depth, topComma ⟨depth, .code⟩ (c :: cs) =
    ((l.isComma && depth == 0) || topComma ⟨l.openBehind depth, .code⟩ (cs.drop (n - 1)))

/-- A lexeme of ordinary characters. -/
theorem takesAlike_ordinary (hn : 0 < n) (h : ∀ d ∈ (c :: cs).take n, isOrdinary d = true)
    (hl : l.isPlain = true) : TakesAlike c cs l n := by
  intro depth
  rw [Lexeme.isComma_of_isPlain hl, Lexeme.openBehind_of_isPlain hl, topComma_take hn h depth]
  rfl

theorem takesAlike_template (h : scanTemplate source s = .ok (l, n)) (hl : l.hasPlainCode = true) :
    TakesAlike '\x60' s l n := by
  rw [scanTemplate] at h
  split at h
  · rename_i first more rest hpieces
    obtain ⟨head, -, h⟩ := exists_of_bind h
    obtain ⟨parts, hparts, h⟩ := exists_of_bind h
    cases h
    have hrest : (pieces .text s).2 = some rest := by rw [hpieces]
    obtain ⟨p, ps, hp, hodd⟩ := pieces_paired hrest
    rw [hpieces] at hp
    cases hp
    have heven : more.length % 2 = 0 := by
      simp [inCode] at hodd
      omega
    have hcodes := plainCodes_of_templateParts heven
    rw [hparts] at hcodes
    have hplain : PlainCodes false (pieces .text s).1 := by
      rw [hpieces]
      exact hcodes hl
    have hdrop : s.drop (1 + (s.length - rest.length) - 1) = rest := by
      rw [Nat.add_sub_cancel_left]
      exact (List.suffix_iff_eq_drop.1 (pieces_suffix hrest)).symm
    intro depth
    rw [hdrop, topComma_quote rfl, topComma_pieces hrest hplain (.inl rfl) depth]
    rfl
  · split at h
    · obtain ⟨_, -, h⟩ := exists_of_bind h
      obtain ⟨_, -, h⟩ := exists_of_bind h
      cases h
    · cases h

theorem takesAlike_string (hc : c = '"' ∨ c = '\'') (h : quotedBody? c cs = some body)
    (t : String) :
    TakesAlike c cs (.string t) (body.length + 2) := by
  have hquote : isQuote c = true ∧ c ≠ '\\' := by
    rcases hc with rfl | rfl <;> decide
  intro depth
  rw [topComma_quote hquote.1, topComma_quotedBody hquote.2 h]
  rfl

/-- Characters of a kind are ordinary if no quote, bracket or comma is of that kind. -/
theorem isOrdinary_of {p : Char → Bool}
    (h : ['"', '\'', '\x60', '(', '[', '{', ')', ']', '}', ','].all (fun c => !p c) = true)
    (hc : p c = true) : isOrdinary c = true := by
  by_contra hspecial
  have hmem : c ∈ ['"', '\'', '\x60', '(', '[', '{', ')', ']', '}', ','] := by
    simp only [isOrdinary, isQuote, isOpening, isClosing, Bool.not_eq_true', Bool.not_eq_false,
      Bool.or_eq_true, beq_iff_eq] at hspecial
    simp only [List.mem_cons, List.not_mem_nil, or_false]
    tauto
  have hnot := List.all_eq_true.1 h c hmem
  rw [hc] at hnot
  cases hnot

/-- What a number may be written with. -/
def isNumberPart (c : Char) : Bool :=
  isDecimal c || c == '.' || c == 'e' || c == 'E' || c == '+' || c == '-'

theorem isNumberPart_add {m : Nat} (h : ∀ c ∈ s.take m, isNumberPart c = true)
    (h' : ∀ c ∈ (s.drop m).take n, isNumberPart c = true) :
    ∀ c ∈ s.take (m + n), isNumberPart c = true := by
  rw [List.take_add]
  exact List.forall_mem_append.2 ⟨h, h'⟩

theorem isNumberPart_digits (s : List Char) :
    ∀ c ∈ s.take (s.takeWhile isDecimal).length, isNumberPart c = true := by
  intro c hc
  rw [← List.prefix_iff_eq_take.1 (List.takeWhile_prefix isDecimal)] at hc
  have hdecimal : isDecimal c = true := List.all_eq_true.1 List.all_takeWhile c hc
  simp [isNumberPart, hdecimal]

theorem isNumberPart_exponent (s : List Char) :
    ∀ c ∈ s.take (exponentLength s), isNumberPart c = true := by
  cases s with
  | nil => simp
  | cons e cs =>
    simp only [exponentLength]
    split
    · rename_i he
      have hmark : isNumberPart e = true := by
        rw [Bool.or_eq_true, beq_iff_eq, beq_iff_eq] at he
        rcases he with rfl | rfl <;> rfl
      have hsign (n : Nat) (hn : ∀ c ∈ cs.take n, isNumberPart c = true) :
          ∀ c ∈ (e :: cs).take (if ((cs.drop n).takeWhile isDecimal).length == 0 then 0
            else 1 + n + ((cs.drop n).takeWhile isDecimal).length), isNumberPart c = true := by
        split
        · simp
        · rw [Nat.add_assoc, Nat.add_comm, List.take_succ_cons]
          exact List.forall_mem_cons.2 ⟨hmark, isNumberPart_add hn (isNumberPart_digits _)⟩
      split
      · exact hsign 1 (by simp [isNumberPart])
      · exact hsign 1 (by simp [isNumberPart])
      · exact hsign 0 (by simp)
    · simp

theorem isNumberPart_number (h : numberLength? s = some n) :
    0 < n ∧ ∀ c ∈ s.take n, isNumberPart c = true := by
  have hwhole := isNumberPart_digits s
  have hfinish {whole point fraction : Nat}
      (hparts : ∀ c ∈ s.take (whole + point + fraction), isNumberPart c = true)
      (h : (if whole == 0 && fraction == 0 then none else some (whole + point + fraction +
        exponentLength (s.drop (whole + point + fraction)))) = some n) :
      0 < n ∧ ∀ c ∈ s.take n, isNumberPart c = true := by
    split at h
    · cases h
    · rename_i hdigits
      cases h
      rw [Bool.and_eq_true, beq_iff_eq, beq_iff_eq] at hdigits
      exact ⟨by omega, isNumberPart_add hparts (isNumberPart_exponent _)⟩
  simp only [numberLength?] at h
  split at h
  · rename_i cs hdrop
    refine hfinish ?_ h
    rw [Nat.add_assoc]
    refine isNumberPart_add hwhole ?_
    rw [hdrop, Nat.add_comm, List.take_succ_cons]
    exact List.forall_mem_cons.2 ⟨rfl, isNumberPart_digits cs⟩
  · exact hfinish hwhole h

theorem takesAlike_symbol {s : Symbol}
    (h : s.text.toList ++ rest = c :: cs) : TakesAlike c cs (.symbol s) s.text.length := by
  have hdrop : cs.drop (s.text.length - 1) = rest := by
    have hpos : 0 < s.text.length := by cases s <;> decide
    calc cs.drop (s.text.length - 1)
        = (c :: cs).drop s.text.length := by
          obtain ⟨k, hk⟩ : ∃ k, s.text.length = k + 1 := ⟨s.text.length - 1, by omega⟩
          rw [hk, List.drop_succ_cons, Nat.add_sub_cancel]
      _ = rest := by rw [← h, ← String.length_toList, List.drop_left]
  intro depth
  rw [← h, hdrop]
  by_cases hplain : (Lexeme.symbol s).isPlain = true
  · have hordinary : s.text.toList.all isOrdinary = true := by
      cases s <;> cases hplain <;> rfl
    rw [Lexeme.isComma_of_isPlain hplain, Lexeme.openBehind_of_isPlain hplain,
      topComma_append (List.all_eq_true.1 hordinary)]
    rfl
  · cases s <;> first | exact absurd rfl hplain | (cases depth <;> rfl)

theorem afterLiteral?_of_symbol? {symbol : Symbol} (h : symbol? s = some symbol) :
    ∃ rest, symbol.text.toList ++ rest = s := by
  have hfound := List.find?_some h
  split at hfound
  · rename_i rest hrest
    exact ⟨rest, List.isPrefixOf?_eq_some_iff_append_eq.1 hrest⟩
  · cases hfound

/-- Only blanks are passed over, all that there are. -/
theorem isBlank_of_scan_none (h : scan source c cs = .ok (none, n)) :
    isBlank c = true ∧ n = ((c :: cs).takeWhile isBlank).length := by
  rw [scan] at h
  dsimp only at h
  split at h
  · obtain ⟨_, -, hr⟩ := exists_of_map h
    cases hr
  split at h
  · rename_i hblank
    cases h
    exact ⟨hblank, rfl⟩
  split at h
  · cases h
  split at h
  · cases h
  split at h
  · obtain ⟨_, -, hr⟩ := exists_of_map h
    cases hr
  split at h
  · cases h
  split at h <;> cases h

/-- **The reader takes a lexeme as the lexer does.** -/
theorem takesAlike_scan (h : scan source c cs = .ok (some l, n)) (hl : l.hasPlainCode = true) :
    TakesAlike c cs l n := by
  rw [scan] at h
  dsimp only at h
  split at h
  · rename_i hc
    obtain ⟨⟨t, k⟩, htemplate, hr⟩ := exists_of_map h
    cases hr
    rw [eq_of_beq hc]
    exact takesAlike_template htemplate hl
  split at h
  · cases h
  split at h
  · rename_i digits hdigits
    cases h
    obtain ⟨hhex, x, hx, rest, hrest⟩ := hexDigits?_eq_some hdigits
    have htake : (c :: cs).take (2 + digits.length) = '0' :: x :: digits := by
      rw [← hrest, Nat.add_comm]
      exact List.take_left' rfl
    refine takesAlike_ordinary (by omega) ?_ rfl
    rw [htake, List.forall_mem_cons, List.forall_mem_cons]
    refine ⟨rfl, ?_, fun d hd => isOrdinary_of rfl (hhex d hd)⟩
    rcases hx with rfl | rfl <;> rfl
  split at h
  · rename_i k hk
    cases h
    obtain ⟨hpos, hparts⟩ := isNumberPart_number hk
    exact takesAlike_ordinary hpos (fun d hd => isOrdinary_of rfl (hparts d hd)) rfl
  split at h
  · rename_i body hbody
    split at hbody
    · rename_i hc
      obtain ⟨t, -, hr⟩ := exists_of_map h
      cases hr
      rw [Bool.or_eq_true, beq_iff_eq, beq_iff_eq] at hc
      exact takesAlike_string hc hbody t
    · cases hbody
  split at h
  · rename_i hc
    cases h
    have hpart : isNamePart c = true := by simp [isNamePart, hc]
    refine takesAlike_ordinary (by simp [hpart]) (fun d hd => ?_) rfl
    rw [← List.prefix_iff_eq_take.1 (List.takeWhile_prefix isNamePart)] at hd
    exact isOrdinary_of rfl (List.all_eq_true.1 List.all_takeWhile d hd)
  split at h
  · rename_i s hs
    cases h
    obtain ⟨rest, hrest⟩ := afterLiteral?_of_symbol? hs
    exact takesAlike_symbol hrest
  · cases h

theorem topComma_scan_blank (h : scan source c cs = .ok (none, n)) (depth : Nat) :
    topComma ⟨depth, .code⟩ (c :: cs) = topComma ⟨depth, .code⟩ (cs.drop (n - 1)) := by
  obtain ⟨hblank, rfl⟩ := isBlank_of_scan_none h
  refine topComma_take (by simp [hblank]) (fun d hd => ?_) depth
  rw [← List.prefix_iff_eq_take.1 (List.takeWhile_prefix isBlank)] at hd
  exact isOrdinary_of rfl (List.all_eq_true.1 List.all_takeWhile d hd)

/-- **The reader finds a comma where the tokens have one outside brackets.** -/
theorem topComma_lexFrom (source : String) (offset : Nat) (s : List Char) {ts : List Token}
    (h : lexFrom source offset s = .ok ts)
    (hplain : ts.all (fun t => t.lexeme.hasPlainCode) = true) (depth : Nat) :
    topComma ⟨depth, .code⟩ s = looseComma depth ts := by
  fun_induction lexFrom source offset s generalizing ts depth with
  | case1 offset =>
    cases h
    rfl
  | case2 offset c cs ih =>
    obtain ⟨⟨l?, n⟩, hscan, h⟩ := exists_of_bind h
    obtain ⟨rest, hrest, h⟩ := exists_of_bind h
    cases h
    cases l? with
    | none => rw [topComma_scan_blank hscan, ih n hrest hplain, Option.elim_none]
    | some l =>
      rw [Option.elim_some, List.all_cons, Bool.and_eq_true] at hplain
      rw [takesAlike_scan hscan hplain.1 depth, ih n hrest hplain.2]
      rfl

/-- **There is no comma at the top level of an expression.** -/
theorem topComma_of_parse {e : Expr} (h : parse source = .ok e)
    (hplain : hasPlainTemplates source = true) : topComma .outermost source.toList = false := by
  obtain ⟨ts, hlex, -⟩ := parse_eq_ok_iff.1 h
  rw [hasPlainTemplates, hlex] at hplain
  exact (topComma_lexFrom source 0 source.toList hlex hplain 0).trans (looseComma_eq_false h hlex)

end Script
end Atoll
