import Atoll.Proofs.Digits
import Atoll.Proofs.Printer

/-!
# Lexemes are read back

What `Expr.spaced` writes down, `Expr.lex` reads: one token for each lexeme, in the same order.

* `hexNumber_toDigits`, `unescapeFrom_flatMap` — the digits of a number and the escapes of a text
  mean what they were made from.
* `scan_spelling` — the scanner takes one whole lexeme, as long as a space or the end of the source
  is behind it.
* `lexFrom_spaced` — hence the lexer finds all of them, by induction on the list.
-/

set_option autoImplicit false

namespace Atoll
namespace Expr

open Text

variable {c : Char} {cs rest : List Char} {l : Lexeme} (source : String)

/-! ## Digits and escapes -/

/-- The hexadecimal digits of a number spell it. -/
theorem hexNumber_toDigits (n : Nat) : hexNumber (Nat.toDigits 16 n) = n :=
  ofDigits_hex n

/-- A character is written as a backslash with a letter that means it, or as it is. -/
theorem escapeChar_cases (c : Char) :
    (∃ e, escapeChar c = ['\\', e] ∧ escapedChar e = [c] ∧ e ≠ 'u' ∧ e ≠ 'x' ∧ e ≠ '\n') ∨
      escapeChar c = [c] ∧ c ≠ '"' ∧ c ≠ '\\' ∧ c ≠ '\n' := by
  unfold escapeChar
  split
  · exact .inl ⟨'"', rfl, rfl, by decide⟩
  · exact .inl ⟨'\\', rfl, rfl, by decide⟩
  · exact .inl ⟨'n', rfl, rfl, by decide⟩
  · rename_i hquote hslash hline
    exact .inr ⟨rfl, hquote, hslash, hline⟩

/-- A letter behind a backslash that starts no code. -/
theorem escapeAt_of_ne (hu : c ≠ 'u') (hx : c ≠ 'x') (cs : List Char) :
    escapeAt (c :: cs) = .ok (escapedChar c, 1) := by
  simp [escapeAt, bracedHex?, countedHex?, hu, hx]

theorem unescapeFrom_escaped (hu : c ≠ 'u') (hx : c ≠ 'x') {s : List Char}
    (h : unescapeFrom 0 cs = .ok s) :
    unescapeFrom 0 ('\\' :: c :: cs) = .ok (escapedChar c ++ s) := by
  rw [unescapeFrom, if_pos (beq_self_eq_true _), escapeAt_of_ne hu hx]
  show (unescapeFrom 1 (c :: cs) >>= fun r => .ok (escapedChar c ++ r)) = _
  rw [unescapeFrom, h]
  rfl

theorem unescapeFrom_plain (hslash : c ≠ '\\') {s : List Char}
    (h : unescapeFrom 0 cs = .ok s) : unescapeFrom 0 (c :: cs) = .ok (c :: s) := by
  rw [unescapeFrom, if_neg (by simpa using hslash), h]
  rfl

/-- What is written means the character, between double quotes: it does not end the text, and its
escapes are replaced by the character. -/
structure Quotes (text : List Char) (c : Char) : Prop where
  body : ∀ rest, quotedBody? '"' (text ++ rest) = (quotedBody? '"' rest).map (text ++ ·)
  meant : ∀ {cs s : List Char}, unescapeFrom 0 cs = .ok s →
    unescapeFrom 0 (text ++ cs) = .ok (c :: s)

theorem quotes_escaped {e : Char} (hmeant : escapedChar e = [c]) (hu : e ≠ 'u') (hx : e ≠ 'x')
    (hline : e ≠ '\n') : Quotes ['\\', e] c where
  body rest := by simp [quotedBody?, hline]
  meant {cs s} h := by
    have hescaped := unescapeFrom_escaped hu hx h
    rwa [hmeant] at hescaped

theorem quotes_plain (hquote : c ≠ '"') (hslash : c ≠ '\\') (hline : c ≠ '\n') :
    Quotes [c] c where
  body rest := by simp [quotedBody?, hquote, hslash, hline]
  meant h := unescapeFrom_plain hslash h

theorem quotes_escapeChar (c : Char) : Quotes (escapeChar c) c := by
  rcases escapeChar_cases c with ⟨e, he, hmeant, hu, hx, hline⟩ | ⟨he, hquote, hslash, hline⟩
  · rw [he]
    exact quotes_escaped hmeant hu hx hline
  · rw [he]
    exact quotes_plain hquote hslash hline

section

variable {written : Char → List Char} (h : ∀ c, Quotes (written c) c)
include h

/-- The body of a quoted text ends at its closing quote. -/
theorem quotedBody?_flatMap (s rest : List Char) :
    quotedBody? '"' (s.flatMap written ++ '"' :: rest) = some (s.flatMap written) := by
  induction s with
  | nil => rfl
  | cons c cs ih =>
    rw [List.flatMap_cons, List.append_assoc, (h c).body, ih]
    rfl

/-- The escapes of a text mean the text. -/
theorem unescapeFrom_flatMap (s : List Char) : unescapeFrom 0 (s.flatMap written) = .ok s := by
  induction s with
  | nil => rfl
  | cons c cs ih =>
    rw [List.flatMap_cons]
    exact (h c).meant ih

end

/-! ## Characters -/

/-- Nothing or a space is ahead. -/
def AtGap (rest : List Char) : Prop :=
  ∀ c ∈ rest.head?, c = ' '

/-- A stretch of characters ends at a gap. -/
theorem AtGap.takeWhile_append (h : AtGap rest) {p : Char → Bool} (hp : p ' ' = false)
    {w : List Char} (hw : ∀ c ∈ w, p c = true) : (w ++ rest).takeWhile p = w := by
  refine takeWhile_append_stop hw fun c hc => ?_
  rw [h c hc, hp]

theorem isBlank_eq_false (hlow : 0x20 < c.toNat) (hhigh : c.toNat < 0x80) : isBlank c = false := by
  simp [isBlank, inRanges, blankRanges]
  omega

theorem isAlpha_toNat (h : c.isAlpha = true) : 0x41 ≤ c.toNat ∧ c.toNat < 0x80 := by
  replace h : (decide (65 ≤ c.val ∧ c.val ≤ 90) ||
    (decide (97 ≤ c.val) && decide (c.val ≤ 122))) = true := h
  simp only [Bool.or_eq_true, Bool.and_eq_true, decide_eq_true_eq] at h
  rcases h with ⟨hlow, hhigh⟩ | ⟨hlow, hhigh⟩
  · have hlow : 65 ≤ c.toNat := UInt32.le_iff_toNat_le.mp hlow
    have hhigh : c.toNat ≤ 90 := UInt32.le_iff_toNat_le.mp hhigh
    omega
  · have hlow : 97 ≤ c.toNat := UInt32.le_iff_toNat_le.mp hlow
    have hhigh : c.toNat ≤ 122 := UInt32.le_iff_toNat_le.mp hhigh
    omega

theorem isNameStart_toNat (h : isNameStart c = true) :
    c.toNat = 0x24 ∨ 0x41 ≤ c.toNat ∧ c.toNat < 0x80 := by
  rw [isNameStart, Bool.or_eq_true, Bool.or_eq_true] at h
  rcases h with (halpha | hline) | hdollar
  · exact .inr (isAlpha_toNat halpha)
  · rw [eq_of_beq hline]
    decide
  · rw [eq_of_beq hdollar]
    decide

theorem isDecimal_eq_false (h : c.toNat < 0x30 ∨ 0x39 < c.toNat ∧ c.toNat < 0x80) :
    isDecimal c = false := by
  have hascii : c.toNat < 0x80 := by omega
  have hdigit : c.isDigit = false := by
    simp only [Char.isDigit, Bool.and_eq_false_iff, decide_eq_false_iff_not, ge_iff_le,
      UInt32.le_iff_toNat_le]
    show ¬ 48 ≤ c.toNat ∨ ¬ c.toNat ≤ 57
    omega
  rw [isDecimal, decimal?, if_pos hascii, hdigit]
  rfl

/-! ## Lexemes -/

theorem hexDigits?_eq_none (h : c ≠ '0') (cs : List Char) : hexDigits? (c :: cs) = none := by
  simp [hexDigits?, h]

theorem numberLength?_eq_none (hc : isDecimal c = false) (hdot : c ≠ '.')
    (cs : List Char) : numberLength? (c :: cs) = none := by
  simp [numberLength?, hc, hdot]

theorem scan_symbol (s : Symbol) (h : AtGap rest) :
    ∃ c cs, s.text.toList = c :: cs ∧
      scan source c (cs ++ rest) = .ok (some (.symbol s), (c :: cs).length) := by
  cases rest with
  | nil => cases s <;> exact ⟨_, _, rfl, rfl⟩
  | cons d ds =>
    obtain rfl : d = ' ' := h d rfl
    cases s <;> exact ⟨_, _, rfl, rfl⟩

theorem scan_integer (n : Nat) (h : AtGap rest) :
    scan source '0' ('x' :: Nat.toDigits 16 n ++ rest) =
      .ok (some (.number (.int n)), ('0' :: 'x' :: Nat.toDigits 16 n).length) := by
  have hdigits : (Nat.toDigits 16 n ++ rest).takeWhile isHex = Nat.toDigits 16 n :=
    h.takeWhile_append (by decide) (isHex_of_mem_toDigits n)
  have hhex : hexDigits? ('0' :: 'x' :: (Nat.toDigits 16 n ++ rest)) =
      some (Nat.toDigits 16 n) := by
    simp [hexDigits?, hdigits]
  have hblank : isBlank '0' = false := by decide
  simp [scan, hblank, hhex, hexNumber_toDigits, Nat.add_comm 2]

/-- A text between double quotes, whatever its characters are written as. -/
theorem scan_quoted (source : String) {written : Char → List Char}
    (h : ∀ c, Quotes (written c) c) (s : String) (rest : List Char) :
    scan source '"' (s.toList.flatMap written ++ ['"'] ++ rest) =
      .ok (some (.string s), ('"' :: (s.toList.flatMap written ++ ['"'])).length) := by
  have hblank : isBlank '"' = false := by decide
  have hhex := hexDigits?_eq_none (by decide : '"' ≠ '0')
    (s.toList.flatMap written ++ '"' :: rest)
  have hnumber := numberLength?_eq_none (by decide : isDecimal '"' = false) (by decide)
    (s.toList.flatMap written ++ '"' :: rest)
  have hbody := quotedBody?_flatMap h s.toList rest
  have hmeant : unescape (s.toList.flatMap written) = .ok s := by
    rw [unescape, unescapeFrom_flatMap h]
    exact congrArg Except.ok String.ofList_toList
  simp [scan, hblank, hhex, hnumber, hbody, hmeant, Except.map]

/-- A name ends where nothing goes on with it. -/
theorem scan_name {id : String} (hid : id.toList = c :: cs) (hc : isNameStart c = true)
    (hcs : ∀ d ∈ cs, isNamePart d = true) (h : ∀ d ∈ rest.head?, isNamePart d = false) :
    scan source c (cs ++ rest) = .ok (some (.name id), (c :: cs).length) := by
  have hrange := isNameStart_toNat hc
  have hne : ∀ d, isNameStart d = false → c ≠ d := by
    rintro d hd rfl
    exact Bool.false_ne_true (hd.symm.trans hc)
  have hblank := isBlank_eq_false (c := c) (by omega) (by omega)
  have hhex := hexDigits?_eq_none (hne '0' (by decide)) (cs ++ rest)
  have hnumber := numberLength?_eq_none (isDecimal_eq_false (c := c) (by omega))
    (hne '.' (by decide)) (cs ++ rest)
  have hname : (c :: (cs ++ rest)).takeWhile isNamePart = id.toList := by
    rw [← List.cons_append, hid]
    refine takeWhile_append_stop (List.forall_mem_cons.mpr ⟨?_, hcs⟩) h
    rw [isNamePart, hc, Bool.true_or]
  simp [scan, hblank, hhex, hnumber, hname, hc, hne '\x60' (by decide), hne '"' (by decide),
    hne '\'' (by decide), ← hid]

/-- **The scanner takes one lexeme**, if a gap is behind it. -/
theorem scan_spelling (hl : l.isPrintable = true) (h : AtGap rest) : ∃ c cs, l.spelling = c :: cs ∧
      scan source c (cs ++ rest) = .ok (some l, l.spelling.length) := by
  cases l with
  | number n =>
    cases n with
    | int n =>
      have hn : (n.toNat : Int) = n := Int.toNat_of_nonneg (of_decide_eq_true hl)
      refine ⟨'0', _, rfl, ?_⟩
      have hscan := scan_integer source n.toNat h
      rw [hn] at hscan
      exact hscan
    | float x => cases hl
  | string s => exact ⟨'"', _, rfl, scan_quoted source quotes_escapeChar s rest⟩
  | template head parts => cases hl
  | name id =>
    rw [Lexeme.isPrintable, isName] at hl
    cases hid : id.toList with
    | nil =>
      rw [hid] at hl
      cases hl
    | cons c cs =>
      rw [hid, Bool.and_eq_true, List.all_eq_true] at hl
      refine ⟨c, cs, hid, ?_⟩
      rw [Lexeme.spelling, hid]
      exact scan_name source hid hl.1 hl.2 fun d hd => by rw [h d hd]; decide
  | symbol s =>
    obtain ⟨c, cs, hs, hscan⟩ := scan_symbol source s h
    refine ⟨c, cs, hs, ?_⟩
    rw [Lexeme.spelling, hs]
    exact hscan

/-! ## Lists of lexemes -/

/-- A token does not start with a blank. -/
theorem isBlank_of_scan {source : String} {n : Nat}
    (h : scan source c cs = .ok (some l, n)) : isBlank c = false := by
  by_contra hblank
  rw [Bool.not_eq_false] at hblank
  have hmark : c ≠ '\x60' := by
    rintro rfl
    revert hblank
    decide
  simp [scan, hblank, hmark] at h

/-- A token that the scanner takes comes first. -/
theorem lexFrom_scan {source : String} {offset : Nat} {c : Char} {cs rest : List Char} {l : Lexeme}
    (hscan : scan source c (cs ++ rest) = .ok (some l, (c :: cs).length)) {ts : List Token}
    (hrest : lexFrom source (offset + (c :: cs).length) rest = .ok ts) :
    lexFrom source offset (c :: cs ++ rest) = .ok (⟨l, offset⟩ :: ts) := by
  rw [List.length_cons] at hscan hrest
  have hmax : max (cs.length + 1) 1 = cs.length + 1 := by omega
  rw [List.cons_append, lexFrom, hscan]
  show (lexFrom source (offset + max (cs.length + 1) 1) ((cs ++ rest).drop cs.length) >>=
    fun ts => .ok (⟨l, offset⟩ :: ts)) = _
  rw [hmax, List.drop_left, hrest]
  rfl

theorem lexFrom_spelling (offset : Nat) (hl : l.isPrintable = true) (h : AtGap rest)
    {ts : List Token} (hrest : lexFrom source (offset + l.spelling.length) rest = .ok ts) :
    lexFrom source offset (l.spelling ++ rest) = .ok (⟨l, offset⟩ :: ts) := by
  obtain ⟨c, cs, hs, hscan⟩ := scan_spelling source hl h
  rw [hs] at hscan hrest ⊢
  exact lexFrom_scan hscan hrest

/-- Blanks are passed over all at once. -/
theorem lexFrom_dropWhile (offset : Nat) (s : List Char) :
    lexFrom source offset s =
      lexFrom source (offset + (s.takeWhile isBlank).length) (s.dropWhile isBlank) := by
  cases s with
  | nil => rfl
  | cons c cs =>
    cases hc : isBlank c with
    | false => simp [hc]
    | true =>
      have hmark : c ≠ '\x60' := by
        rintro rfl
        revert hc
        decide
      have hscan : scan source c cs = .ok (none, ((c :: cs).takeWhile isBlank).length) := by
        simp [scan, hc, hmark]
      rw [List.takeWhile_cons_of_pos hc, List.length_cons] at hscan ⊢
      have hmax : max ((cs.takeWhile isBlank).length + 1) 1 =
          (cs.takeWhile isBlank).length + 1 := by omega
      rw [lexFrom, hscan]
      show (lexFrom source (offset + max ((cs.takeWhile isBlank).length + 1) 1)
        (cs.drop (cs.takeWhile isBlank).length) >>= fun ts => .ok ts) = _
      rw [hmax, drop_takeWhile_length, List.dropWhile_cons_of_pos hc]
      cases lexFrom source _ (cs.dropWhile isBlank) <;> rfl

theorem lexFrom_space (offset : Nat) (hc : isBlank c = false) (cs : List Char) :
    lexFrom source offset (' ' :: c :: cs) = lexFrom source (offset + 1) (c :: cs) := by
  have hspace : isBlank ' ' = true := by decide
  rw [lexFrom_dropWhile]
  simp [hspace, hc]

/-- The tokens say what the lexemes say, wherever they stand. -/
def Spells (ts : List Token) (ls : List Lexeme) : Prop :=
  ts.map Token.lexeme = ls

theorem spaced_cons_cons (l m : Lexeme) (ls : List Lexeme) :
    spaced (l :: m :: ls) = l.spelling ++ ' ' :: spaced (m :: ls) := by
  simp [spaced, List.intercalate]

theorem spaced_singleton (l : Lexeme) : spaced [l] = l.spelling := by
  simp [spaced]

/-- The text of a lexeme does not start with a blank. -/
theorem spaced_head (hl : l.isPrintable = true) (ls : List Lexeme) :
    ∃ c cs, spaced (l :: ls) = c :: cs ∧ isBlank c = false := by
  obtain ⟨c, cs, hs, hscan⟩ := scan_spelling "" hl (by simp [AtGap] : AtGap [])
  have hblank := isBlank_of_scan hscan
  cases ls with
  | nil => exact ⟨c, cs, by rw [spaced_singleton, hs], hblank⟩
  | cons m ls => exact ⟨c, _, by rw [spaced_cons_cons, hs, List.cons_append], hblank⟩

/-- **The lexer finds the lexemes that were written down.** -/
theorem lexFrom_spaced (ls : List Lexeme) (hls : ∀ l ∈ ls, l.isPrintable = true) (offset : Nat) :
    ∃ ts, lexFrom source offset (spaced ls) = .ok ts ∧ Spells ts ls := by
  induction ls generalizing offset with
  | nil =>
    refine ⟨[], ?_, rfl⟩
    simp [spaced, lexFrom]
  | cons l ls ih =>
    obtain ⟨hl, hls⟩ := List.forall_mem_cons.mp hls
    cases ls with
    | nil =>
      refine ⟨[⟨l, offset⟩], ?_, rfl⟩
      rw [spaced_singleton, ← List.append_nil l.spelling]
      exact lexFrom_spelling source offset hl (by simp [AtGap]) (by rw [lexFrom])
    | cons m ls =>
      obtain ⟨ts, hts, hspells⟩ := ih hls (offset + l.spelling.length + 1)
      refine ⟨⟨l, offset⟩ :: ts, ?_, congrArg (l :: ·) hspells⟩
      -- the next lexeme does not start with a blank, so the gap is one space
      obtain ⟨c, cs, hc, hblank⟩ := spaced_head (hls m List.mem_cons_self) ls
      rw [spaced_cons_cons]
      refine lexFrom_spelling source offset hl (by simp [AtGap]) ?_
      rw [hc] at hts ⊢
      rw [lexFrom_space source _ hblank]
      exact hts

end Expr
end Atoll
