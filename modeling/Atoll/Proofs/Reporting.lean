import Atoll.Proofs.Digits
import Atoll.Proofs.Evaluation
import Mathlib

/-!
# Every failure of an evaluation is reported

`Expr.evaluate` gives a value or reports a failure.  Two things in a source get past it while the
source is read: an escape in braces for a code beyond the last character, and a hexadecimal number
with so many digits that a message cannot show it.  Nothing else does.

* `HasLargeEscape`, `HasLongHex` — the two things, as pieces of a text.
* `Fault.FromReading` — the faults of reading a text, with the piece that causes them.
* `lexFrom_ends` — **the tokens of a text can be shown**, or there is such a fault.
* `Reads` — a parser ends with such faults only; `reads_parseAt` — **the parser for expressions
  does**, by induction on how deeply they are nested.
* `evaluate_outcome` — hence all that an evaluation can end with.
-/

set_option autoImplicit false

namespace Atoll
namespace Expr

open Text

variable {s digits : List Char} {ts : List Token} {ps : List String}

/-! ## Texts that cannot be read -/

/-- The text has an escape in braces for a code beyond the last character. -/
def HasLargeEscape (text : List Char) : Prop :=
  ∃ digits, (∀ c ∈ digits, isHex c = true) ∧ 0x10ffff < hexNumber digits ∧
    '\\' :: 'u' :: '{' :: (digits ++ ['}']) <:+: text

/-- The text has a hexadecimal number with more decimal digits than are ever written. -/
def HasLongHex (text : List Char) : Prop :=
  ∃ x digits, (x = 'x' ∨ x = 'X') ∧ (∀ c ∈ digits, isHex c = true) ∧
    Nat.pow 10 maxDigits ≤ hexNumber digits ∧ '0' :: x :: digits <:+: text

/-- The faults of reading a text, with the piece that causes them. -/
def Fault.FromReading (text : List Char) : Fault → Prop
  | .failed failure => failure.reason.IsFounded
  | .tooDeep => True
  | .trouble .noCharacter => HasLargeEscape text
  | .trouble .largeCode => HasLargeEscape text
  | .trouble .longInteger => HasLongHex text
  | _ => False

/-! ## Escapes -/

theorem hexNumber_lt (digits : List Char) : hexNumber digits < 16 ^ digits.length := by
  have hlt : hexNumber digits < 16 ^ (digits.filterMap hexValue?).length := by
    refine ofDigits_lt fun d hd => ?_
    obtain ⟨c, -, hc⟩ := List.mem_filterMap.1 hd
    exact hexValue?_lt hc
  exact Nat.lt_of_lt_of_le hlt (Nat.pow_le_pow_right (by decide) (List.length_filterMap_le ..))

section

variable {text : List Char}

theorem codePoint_fails {n : Nat} (h : 0x10ffff < n → HasLargeEscape text) :
    FailsWith (Fault.FromReading text) (codePoint n) := by
  rw [codePoint]
  split
  · exact .ok _
  · rename_i hn
    have hlarge := h (by omega)
    split
    · exact .error hlarge
    · exact .error hlarge

theorem bracedHex?_eq_some (h : bracedHex? s = some digits) :
    (∀ c ∈ digits, isHex c = true) ∧ ∃ rest, s = 'u' :: '{' :: (digits ++ '}' :: rest) := by
  unfold bracedHex? at h
  split at h
  · rename_i cs
    dsimp only at h
    rw [drop_takeWhile_length] at h
    split at h
    · rename_i hclosed
      cases h
      rw [Bool.and_eq_true, beq_iff_eq, List.head?_eq_some_iff] at hclosed
      obtain ⟨-, rest, hrest⟩ := hclosed
      refine ⟨List.all_eq_true.1 List.all_takeWhile, rest, ?_⟩
      rw [← hrest, List.takeWhile_append_dropWhile]
    · cases h
  · cases h

theorem countedHex?_eq_some {letter : Char} {count : Nat}
    (h : countedHex? letter count s = some digits) : digits.length = count := by
  unfold countedHex? at h
  split at h
  · dsimp only at h
    split at h
    · rename_i hall
      cases h
      simp only [Bool.and_eq_true, beq_iff_eq] at hall
      exact hall.1.2
    · cases h
  · cases h

/-- Only an escape in braces can be for a code that is too large. -/
theorem escapeAt_fails (h : '\\' :: s <:+: text) :
    FailsWith (Fault.FromReading text) (escapeAt s) := by
  unfold escapeAt
  split
  · rename_i digits hdigits
    obtain ⟨hhex, rest, rfl⟩ := bracedHex?_eq_some hdigits
    refine (codePoint_fails fun hlarge => ⟨digits, hhex, hlarge, ?_⟩).map _
    exact .trans ⟨[], rest, by simp⟩ h
  · split
    · -- four digits or two cannot spell a code that is too large
      rename_i digits hdigits
      refine (codePoint_fails fun hlarge => ?_).map _
      have hlength : digits.length ≤ 4 := by
        cases hfour : countedHex? 'u' 4 s with
        | some four =>
          rw [hfour] at hdigits
          cases hdigits
          exact (countedHex?_eq_some hfour).le
        | none =>
          rw [hfour] at hdigits
          exact (countedHex?_eq_some hdigits).trans_le (by decide)
      have hsmall : hexNumber digits < 16 ^ 4 :=
        Nat.lt_of_lt_of_le (hexNumber_lt digits) (Nat.pow_le_pow_right (by decide) hlength)
      omega
    · split
      · exact .ok _
      · exact .ok _

theorem unescapeFrom_fails (h : s <:+: text) (skip : Nat) :
    FailsWith (Fault.FromReading text) (unescapeFrom skip s) := by
  induction s generalizing skip with
  | nil =>
    rw [unescapeFrom]
    exact .ok _
  | cons c cs ih =>
    have hcs : cs <:+: text := (List.infix_cons List.infix_rfl).trans h
    cases skip with
    | succ skip => exact ih hcs skip
    | zero =>
      rw [unescapeFrom]
      split
      · rename_i hslash
        rw [eq_of_beq hslash] at h
        exact (escapeAt_fails h).bind fun (meant, taken) => (ih hcs taken).bind fun more => .ok _
      · exact (ih hcs 0).bind fun more => .ok _

theorem unescape_fails (h : s <:+: text) : FailsWith (Fault.FromReading text) (unescape s) :=
  (unescapeFrom_fails h 0).map _

/-! ## Tokens -/

end

/-- The pieces are pieces of the text, and the first one stands at its beginning. -/
def Pieces.Within (p : Pieces) (s : List Char) : Prop :=
  ∃ first more rest, p = (first :: more, rest) ∧ first <+: s ∧ ∀ q ∈ more, q <:+: s

theorem Pieces.Within.push {p : Pieces} (h : p.Within s) (c : Char) :
    (p.push c).Within (c :: s) := by
  obtain ⟨first, more, rest, rfl, hfirst, hmore⟩ := h
  exact ⟨c :: first, more, rest, rfl, List.cons_prefix_cons.2 ⟨rfl, hfirst⟩,
    fun q hq => List.infix_cons (hmore q hq)⟩

theorem Pieces.Within.cut {p : Pieces} (h : p.Within s) (mark : List Char) :
    p.cut.Within (mark ++ s) := by
  obtain ⟨first, more, rest, rfl, hfirst, hmore⟩ := h
  have hs : s <:+: mark ++ s := (List.suffix_append mark s).isInfix
  refine ⟨[], first :: more, rest, rfl, List.nil_prefix, ?_⟩
  exact List.forall_mem_cons.2 ⟨hfirst.isInfix.trans hs, fun q hq => (hmore q hq).trans hs⟩

theorem pieces_within (mode : TemplateMode) (s : List Char) : (pieces mode s).Within s := by
  fun_induction pieces mode s with
  | case1 cs => exact ⟨[], [], some cs, rfl, List.nil_prefix, by simp⟩
  | case2 c cs ih => exact (ih.push c).push '\\'
  | case3 cs ih => exact ih.cut ['$', '{']
  | case4 cs ih => exact ih.cut ['}']
  | case5 depth cs ih => exact ih.push '}'
  | case6 depth cs ih => exact ih.push '{'
  | case7 mode c cs _ _ _ _ _ _ ih => exact ih.push c
  | case8 mode => exact ⟨[], [], none, rfl, List.nil_prefix, by simp⟩

/-- A message can show the lexeme unless the text cannot be read, and the code in a template is a
piece of the text. -/
structure Lexeme.Fine (text : List Char) (l : Lexeme) : Prop where
  shown : FailsWith (Fault.FromReading text) l.quoted
  codes : ∀ head parts, l = .template head parts → ∀ p ∈ parts, p.1.toList <:+: text

section

variable {text : List Char}

theorem templateParts_ends {ps : List (List Char)} (h : ∀ p ∈ ps, p <:+: text) :
    Ends (Fault.FromReading text) (fun parts => ∀ p ∈ parts, p.1.toList <:+: text)
      (templateParts ps) := by
  fun_induction templateParts ps with
  | case1 code piece more ih =>
    rw [List.forall_mem_cons, List.forall_mem_cons] at h
    refine Ends.bind (unescape_fails h.2.1) fun piece _ => (ih h.2.2).bind fun parts hparts => ?_
    exact List.forall_mem_cons.2 ⟨by simpa using h.1, hparts⟩
  | case2 ps =>
    intro p hp
    cases hp

theorem fine_template (head : String) {parts : List (String × String)}
    (h : ∀ p ∈ parts, p.1.toList <:+: text) : (Lexeme.template head parts).Fine text where
  shown := .ok _
  codes := by
    intro head parts heq
    cases heq
    exact h

/-- Other lexemes than templates only have to be shown. -/
theorem fine_of_shown {l : Lexeme} (hl : ∀ head parts, l ≠ .template head parts)
    (h : FailsWith (Fault.FromReading text) l.quoted) : l.Fine text :=
  ⟨h, fun head parts heq => absurd heq (hl head parts)⟩

theorem scanTemplate_ends (source : String) (h : s <:+: text) :
    Ends (Fault.FromReading text) (fun r => r.1.Fine text) (scanTemplate source s) := by
  obtain ⟨first, more, rest, hpieces, hfirst, hmore⟩ := pieces_within .text s
  have hall : ∀ p ∈ first :: more, p <:+: text :=
    List.forall_mem_cons.2 ⟨hfirst.isInfix.trans h, fun p hp => (hmore p hp).trans h⟩
  rw [scanTemplate, hpieces]
  cases rest with
  | some rest =>
    rw [List.forall_mem_cons] at hall
    exact Ends.bind (unescape_fails hall.1) fun head _ =>
      (templateParts_ends hall.2).bind fun parts hparts => fine_template head hparts
  | none =>
    -- the last piece is cut off, and whatever the others give, there is an error
    have hinit : ∀ p ∈ (first :: more).dropLast, p <:+: text := fun p hp =>
      hall p ((List.dropLast_sublist _).subset hp)
    dsimp only
    split
    · rename_i head more heq
      rw [heq, List.forall_mem_cons] at hinit
      exact Ends.bind (unescape_fails hinit.1) fun _ _ =>
        (templateParts_ends hinit.2).bind fun _ _ => trivial
    · trivial

/-! A number is shown unless it is hexadecimal and too long. -/

theorem literal?_collapse (x : Float) : ((Number.collapse x).literal?).isSome = true := by
  have hlimit : ∀ k, 16 ≤ k → Nat.pow 2 53 ≤ Nat.pow 10 k := fun k hk =>
    Nat.le_trans (by decide : 2 ^ 53 ≤ 10 ^ 16) (Nat.pow_le_pow_right (by decide) hk)
  unfold Number.collapse
  split
  · split
    · rename_i n _ hn
      have hsmall : n.natAbs < Nat.pow 10 maxDigits :=
        Nat.lt_of_lt_of_le hn (hlimit maxDigits (by decide))
      rw [Number.literal?, Decimal.intText?, if_pos hsmall]
      rfl
    · rfl
  · rfl

theorem fine_number {n : Number} (h : n.literal? = none → HasLongHex text) :
    (Lexeme.number n).Fine text := by
  refine fine_of_shown (fun head parts => Lexeme.noConfusion) ?_
  rw [Lexeme.quoted]
  split
  · exact .ok _
  · rename_i hnone
    exact .error (h hnone)

theorem hexDigits?_eq_some (h : hexDigits? s = some digits) :
    (∀ c ∈ digits, isHex c = true) ∧ ∃ x, (x = 'x' ∨ x = 'X') ∧ '0' :: x :: digits <+: s := by
  unfold hexDigits? at h
  split at h
  · rename_i x cs
    dsimp only at h
    split at h
    · rename_i hx
      cases h
      rw [Bool.and_eq_true, Bool.or_eq_true, beq_iff_eq, beq_iff_eq] at hx
      refine ⟨List.all_eq_true.1 List.all_takeWhile, x, hx.1, ?_⟩
      exact List.cons_prefix_cons.2
        ⟨rfl, List.cons_prefix_cons.2 ⟨rfl, List.takeWhile_prefix isHex⟩⟩
    · cases h
  · cases h

theorem quotedBody?_isPrefix {quote : Char} {body : List Char}
    (h : quotedBody? quote s = some body) : body <+: s := by
  fun_induction quotedBody? quote s generalizing body with
  | case1 => cases h
  | case2 c cs _ ih =>
    obtain ⟨inner, hinner, rfl⟩ := Option.map_eq_some_iff.1 h
    exact List.cons_prefix_cons.2 ⟨rfl, List.cons_prefix_cons.2 ⟨rfl, ih hinner⟩⟩
  | case3 =>
    cases h
    exact List.nil_prefix
  | case4 => cases h
  | case5 c cs _ _ _ ih =>
    obtain ⟨inner, hinner, rfl⟩ := Option.map_eq_some_iff.1 h
    exact List.cons_prefix_cons.2 ⟨rfl, ih hinner⟩
  | case6 => cases h

/-- **What starts at a character** is a lexeme that can be shown, or the text cannot be read. -/
theorem scan_ends (source : String) {c : Char} {cs : List Char} (h : c :: cs <:+: text) :
    Ends (Fault.FromReading text) (fun r => ∀ l ∈ r.1, l.Fine text) (scan source c cs) := by
  have hcs : cs <:+: text := (List.infix_cons List.infix_rfl).trans h
  have hfine : ∀ {l : Lexeme} (n : Nat), l.Fine text →
      Ends (Fault.FromReading text) (fun r : Option Lexeme × Nat => ∀ l ∈ r.1, l.Fine text)
        (.ok (some l, n)) := by
    intro l n hl m hm
    cases hm
    exact hl
  unfold scan
  dsimp only
  split
  · refine (scanTemplate_ends source hcs).map fun r hr l hl => ?_
    cases hl
    exact hr
  split
  · intro l hl
    cases hl
  split
  · rename_i digits hdigits
    obtain ⟨hhex, x, hx, hstart⟩ := hexDigits?_eq_some hdigits
    refine hfine _ (fine_number fun hnone => ⟨x, digits, hx, hhex, ?_, hstart.isInfix.trans h⟩)
    rw [Number.literal?, Decimal.intText?, ite_eq_right_iff] at hnone
    exact Nat.le_of_not_lt fun hsmall => nomatch hnone hsmall
  split
  · -- a decimal number is a double, or an integer below 2⁵³
    rename_i n _
    refine hfine _ (fine_number fun hnone => ?_)
    cases hread : Decimal.readDouble? ((c :: cs).take n) with
    | none =>
      rw [hread] at hnone
      cases hnone
    | some x =>
      have hsome := literal?_collapse x
      rw [hread, Option.elim_some] at hnone
      rw [hnone] at hsome
      cases hsome
  split
  · rename_i body hbody
    split at hbody
    · have hpiece : body <:+: text := (quotedBody?_isPrefix hbody).isInfix.trans hcs
      refine Ends.map (unescape_fails hpiece) fun t _ l hl => ?_
      cases hl
      exact fine_of_shown (fun head parts => Lexeme.noConfusion) (.ok _)
    · cases hbody
  split
  · exact hfine _ (fine_of_shown (fun head parts => Lexeme.noConfusion) (.ok _))
  split
  · exact hfine _ (fine_of_shown (fun head parts => Lexeme.noConfusion) (.ok _))
  · trivial

theorem lexFrom_ends (source : String) (offset : Nat) (h : s <:+: text) :
    Ends (Fault.FromReading text) (fun ts => ∀ t ∈ ts, t.lexeme.Fine text)
      (lexFrom source offset s) := by
  fun_induction lexFrom source offset s with
  | case1 offset =>
    intro t ht
    cases ht
  | case2 offset c cs ih =>
    refine (scan_ends source h).bind fun (lexeme, taken) hlexeme => ?_
    have hrest : cs.drop (taken - 1) <:+: text :=
      ((List.drop_suffix _ cs).isInfix.trans (List.infix_cons List.infix_rfl)).trans h
    refine (ih taken hrest).bind fun ts hts => ?_
    cases lexeme with
    | none => exact hts
    | some l => exact List.forall_mem_cons.2 ⟨hlexeme l rfl, hts⟩

end

/-! ## Parsers -/

/-- All tokens are fine. -/
abbrev FineTokens (text : List Char) (ts : List Token) : Prop :=
  ∀ t ∈ ts, t.lexeme.Fine text

/-- The parser leaves fine tokens of fine tokens, or ends with a fault of reading the text. -/
def Reads {α : Type} (text : List Char) (p : Parser α) : Prop :=
  ∀ ts, FineTokens text ts → Ends (Fault.FromReading text) (fun r => FineTokens text r.2) (p ts)

section

variable {text : List Char}

theorem FineTokens.drop (h : FineTokens text ts) (n : Nat) : FineTokens text (ts.drop n) :=
  fun t ht => h t (List.mem_of_mem_drop ht)

theorem FineTokens.tail {t : Token} (h : FineTokens text (t :: ts)) : FineTokens text ts :=
  (List.forall_mem_cons.1 h).2

theorem found_fails (h : FineTokens text ts) : FailsWith (Fault.FromReading text) (found ts) := by
  cases ts with
  | nil => exact .ok _
  | cons t ts => exact (h t (List.mem_cons_self ..)).shown

/-- A parser with its result changed. -/
theorem Reads.map {α β : Type} {p : Parser α} (hp : Reads text p) (g : α → β)
    (hts : FineTokens text ts) :
    Ends (Fault.FromReading text) (fun r => FineTokens text r.2)
      ((p ts).map fun (a, rest) => (g a, rest)) :=
  (hp ts hts).map fun _ hr => hr

theorem reads_expect (source : String) (symbol : Symbol) : Reads text (expect source symbol) := by
  intro ts hts
  rw [expect]
  split
  · exact hts.drop 1
  · exact Ends.bind (found_fails hts) fun _ _ => trivial

theorem reads_propertyName (source : String) : Reads text (propertyName source) := by
  intro ts hts
  unfold propertyName
  split
  · exact hts.tail
  · trivial

/-! Operators -/

theorem reads_chain {op? : Symbol → Option (Expr → Expr → Expr)} {operand : Parser Expr}
    (hoperand : Reads text operand) (fuel : Nat) (left : Expr) :
    Reads text (chain op? operand fuel left) := by
  induction fuel generalizing left with
  | zero => exact fun ts hts => hts
  | succ fuel ih =>
    intro ts hts
    unfold chain
    split
    · rename_i s o rest
      split
      · exact (hoperand rest hts.tail).bind fun (right, rest) hrest => ih _ rest hrest
      · exact hts
    · exact hts

theorem reads_leftAssociative {operand : Parser Expr} (hoperand : Reads text operand)
    (op? : Symbol → Option (Expr → Expr → Expr)) : Reads text (leftAssociative operand op?) :=
  fun ts hts => (hoperand ts hts).bind fun r hr => reads_chain hoperand _ r.1 r.2 hr

theorem reads_levels {operand : Parser Expr} (hoperand : Reads text operand)
    (ops : List (Symbol → Option (Expr → Expr → Expr))) :
    Reads text (ops.foldl leftAssociative operand) := by
  induction ops generalizing operand with
  | nil => exact hoperand
  | cons op? ops ih => exact ih (reads_leftAssociative hoperand op?)

/-! Lists -/

theorem reads_separated {α : Type} (source : String) {item : Parser α} (hitem : Reads text item)
    (closing : Symbol) (fuel : Nat) : Reads text (separated source item closing fuel) := by
  induction fuel with
  | zero => exact fun ts hts => (reads_expect source closing).map (fun _ => []) hts
  | succ fuel ih =>
    intro ts hts
    rw [separated]
    split
    · exact hts.drop 1
    · refine (hitem ts hts).bind fun (x, rest) hrest => ?_
      dsimp only
      split
      · exact (ih _ (FineTokens.drop hrest 1)).bind fun r hr => hr
      · exact (reads_expect source closing rest hrest).bind fun r hr => hr

/-! Templates -/

theorem templateExprs_fails {whole : String → Except Fault Expr}
    (hwhole : ∀ code : String, code.toList <:+: text →
      FailsWith (Fault.FromReading text) (whole code))
    {parts : List (String × String)} (h : ∀ p ∈ parts, p.1.toList <:+: text) :
    FailsWith (Fault.FromReading text) (templateExprs whole parts) := by
  induction parts with
  | nil => exact .ok _
  | cons part parts ih =>
    rw [List.forall_mem_cons] at h
    exact (hwhole _ h.1).bind fun e => (ih h.2).bind fun es => .ok _

end

/-! Parts of an expression, over a parser for expressions -/

section

variable {text : List Char} (source : String) {expression : Parser Expr}
  (hexpression : Reads text expression)
include hexpression

theorem reads_element : Reads text (element expression) := by
  intro ts hts
  unfold element
  split
  · exact hexpression.map _ hts.tail
  · exact hexpression.map _ hts

theorem reads_elements (closing : Symbol) : Reads text (elements source expression closing) :=
  fun ts hts => reads_separated source (reads_element hexpression) closing _ ts hts

theorem reads_valueOf (key : Expr) : Reads text (valueOf source expression key) := by
  intro ts hts
  refine (reads_expect source .colon ts hts).bind fun r hr => ?_
  exact (hexpression r.2 hr).bind fun r hr => hr

theorem reads_entry : Reads text (entry source expression) := by
  intro ts hts
  unfold entry
  split
  · exact hexpression.map _ hts.tail
  · refine (hexpression _ hts.tail).bind fun (key, rest) hrest => ?_
    exact (reads_expect source .squareClose rest hrest).bind
      fun (_, rest) hrest => reads_valueOf source hexpression key rest hrest
  · dsimp only
    split
    · exact reads_valueOf source hexpression _ _ hts.tail
    · exact hts.tail
  · exact reads_valueOf source hexpression _ _ hts.tail
  · split
    · exact reads_valueOf source hexpression _ _ hts.tail
    · trivial
  · trivial

theorem reads_entries : Reads text (entries source expression) :=
  fun ts hts => reads_separated source (reads_entry source hexpression) .curlyClose _ ts hts

theorem reads_keyInBrackets : Reads text (keyInBrackets source expression) := by
  intro ts hts
  refine (hexpression ts hts).bind fun r hr => ?_
  exact (reads_expect source .squareClose r.2 hr).bind fun r hr => hr

theorem reads_suffixes (fuel : Nat) (e : Expr) :
    Reads text (suffixes source expression fuel e) := by
  induction fuel generalizing e with
  | zero => exact fun ts hts => hts
  | succ fuel ih =>
    intro ts hts
    unfold suffixes
    split
    · exact (reads_propertyName source _ hts.tail).bind fun (id, rest) hrest => ih _ rest hrest
    · exact (reads_keyInBrackets source hexpression _ hts.tail.tail).bind
        fun (key, rest) hrest => ih _ rest hrest
    · exact (reads_elements source hexpression .parenClose _ hts.tail.tail).bind
        fun (args, rest) hrest => ih _ rest hrest
    · exact (reads_propertyName source _ hts.tail).bind fun (id, rest) hrest => ih _ rest hrest
    · exact (reads_keyInBrackets source hexpression _ hts.tail).bind
        fun (key, rest) hrest => ih _ rest hrest
    · exact (reads_elements source hexpression .parenClose _ hts.tail).bind
        fun (args, rest) hrest => ih _ rest hrest
    · exact hts

theorem reads_primary {whole : String → Except Fault Expr}
    (hwhole : ∀ code : String, code.toList <:+: text →
      FailsWith (Fault.FromReading text) (whole code)) :
    Reads text (primary source expression whole) := by
  intro ts hts
  unfold primary
  split
  · exact hts.tail
  · exact hts.tail
  · -- the code in a template is read as a source of its own, and that is a piece of the text
    have hcodes := (hts _ (List.mem_cons_self ..)).codes _ _ rfl
    exact Ends.map (templateExprs_fails hwhole hcodes) fun _ _ => hts.tail
  · exact hts.tail
  · refine (hexpression _ hts.tail).bind fun r hr => ?_
    exact (reads_expect source .parenClose r.2 hr).bind fun r hr => hr
  · exact (reads_elements source hexpression .squareClose).map _ hts.tail
  · exact (reads_entries source hexpression).map _ hts.tail
  · exact Ends.bind (found_fails hts) fun _ _ => trivial

end

/-! ## Expressions -/

theorem paramNames?_suffix {rest : List Token}
    (h : paramNames? ts = some (ps, rest)) : rest <:+ ts := by
  fun_induction paramNames? ts generalizing ps rest with
  | case1 p o o' ts =>
    cases h
    exact List.suffix_append [_, _] ts
  | case2 p o o' ts ih =>
    obtain ⟨⟨qs, r⟩, hqs, hr⟩ := Option.map_eq_some_iff.1 h
    cases hr
    exact (ih hqs).trans (List.suffix_append [_, _] ts)
  | case3 => cases h

theorem arrowHead?_suffix {rest : List Token}
    (h : arrowHead? ts = some (ps, rest)) : rest <:+ ts := by
  unfold arrowHead? at h
  split at h
  · split at h
    · cases h
    · cases h
      exact List.suffix_append [_, _] _
  · rename_i o inner
    dsimp only at h
    split at h
    · rename_i heq
      cases h
      split at heq
      · cases heq
        exact List.suffix_append [_, _, _] _
      · exact ((List.suffix_cons ..).trans (paramNames?_suffix heq)).trans (List.suffix_cons ..)
    · cases h
  · cases h

section

variable {text : List Char} {below : Below} (hbelow : ∀ source goal, Reads text (below source goal))
include hbelow

/-- A source in the text is read whole, or there is a fault of reading the text. -/
theorem whole_fails {source : String} (h : source.toList <:+: text) :
    FailsWith (Fault.FromReading text) (whole below source) := by
  refine Ends.bind (lexFrom_ends source 0 h) fun ts hts => ?_
  split
  · trivial
  · refine (hbelow source .expression ts hts).bind fun (e, rest) hrest => ?_
    dsimp only
    split
    · trivial
    · exact Ends.bind (hrest _ (List.mem_cons_self ..)).shown fun _ _ => trivial

theorem reads_operand (source : String) : Reads text (operand below source) := by
  intro ts hts
  unfold operand
  split
  · exact (hbelow source .unary).map _ (hts.drop 1)
  · refine (reads_primary source (hbelow source .expression) (fun code => whole_fails hbelow) ts
      hts).bind fun (e, rest) hrest => ?_
    exact reads_suffixes source (hbelow source .expression) _ e rest hrest

theorem reads_choice (source : String) : Reads text (choice below source) := by
  intro ts hts
  refine (reads_levels (reads_operand hbelow source) levels ts hts).bind
    fun (test, rest) hrest => ?_
  dsimp only
  split
  · refine (hbelow source .expression _ (FineTokens.drop hrest 1)).bind fun (yes, rest) hrest => ?_
    refine (reads_expect source .colon rest hrest).bind fun (_, rest) hrest => ?_
    exact (hbelow source .expression rest hrest).bind fun r hr => hr
  · exact hrest

theorem reads_step (source : String) (goal : Goal) : Reads text (step below source goal) := by
  intro ts hts
  cases goal with
  | unary => exact reads_operand hbelow source ts hts
  | expression =>
    rw [step]
    split
    · rename_i harrow
      exact (hbelow source .expression).map _
        fun t ht => hts t ((arrowHead?_suffix harrow).subset ht)
    · exact reads_choice hbelow source ts hts

end

/-- **The parser for expressions passes faults of reading on**, by induction on how deeply they may
be nested. -/
theorem reads_parseAt (text : List Char) (depth : Nat) (source : String) (goal : Goal) :
    Reads text (parseAt depth source goal) := by
  induction depth generalizing source goal with
  | zero => exact fun ts hts => trivial
  | succ depth ih => exact reads_step ih source goal

/-- Reading a source gives an expression or a fault of reading it. -/
theorem parse_fails (source : String) :
    FailsWith (Fault.FromReading source.toList) (parse source) :=
  whole_fails (reads_parseAt source.toList maxDepth) List.infix_rfl

/-- **An evaluation gives a value or reports a failure** with a cause that could be met there,
unless its source is not readable, which takes an escape for a code beyond the last character or a
hexadecimal number that is too long to be shown. -/
theorem evaluate_outcome (names : Bindings) (label : Label) (source : String) :
    (∃ v, evaluate names label source = .ok v) ∨
    (∃ failure, evaluate names label source = .error (.failed failure) ∧
      failure.reason.IsFounded) ∨
    ∃ cause, evaluate names label source = .error (.trouble cause) ∧
      parse source = .error (.trouble cause) ∧
      (HasLargeEscape source.toList ∨ HasLongHex source.toList) := by
  have hparse := parse_fails source
  rw [evaluate, evaluateIn]
  cases hread : parse source with
  | error fault =>
    rw [hread] at hparse
    cases fault with
    | failed failure => exact .inr (.inl ⟨failure, rfl, hparse⟩)
    | tooDeep => exact .inr (.inl ⟨_, rfl, trivial⟩)
    | trouble cause =>
      refine .inr (.inr ⟨cause, rfl, rfl, ?_⟩)
      cases cause with
      | noCharacter => exact .inl hparse
      | largeCode => exact .inl hparse
      | longInteger => exact .inr hparse
      | _ => cases hparse
  | ok e =>
    have hrun := (reports_run [names] maxDepth).evaluate ⟨[], 0⟩ label e
    dsimp only
    cases hvalue : run [names] maxDepth (.evaluate ⟨[], 0⟩ label e) with
    | ok v => exact .inl ⟨v, rfl⟩
    | error fault =>
      rw [hvalue] at hrun
      obtain ⟨failure, hfailure, hcause⟩ := report_reportable source hrun
      exact .inr (.inl ⟨failure, by rw [Except.mapError, hfailure], hcause⟩)

/-- An escape for a code beyond the last character goes unreported. -/
theorem evaluate_large_escape :
    evaluate [] [] "'\\u\x7b110000\x7d'" = .error (.trouble .noCharacter) := by
  have hlex : lex "'\\u\x7b110000\x7d'" = .error (.trouble .noCharacter) := by
    cbv
  rw [evaluate, evaluateIn, parse, whole, hlex]
  rfl

end Expr
end Atoll
