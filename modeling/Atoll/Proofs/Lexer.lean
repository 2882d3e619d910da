import Atoll.Markup.Token.Lexer
import Atoll.Proofs.Position
import Mathlib.Data.List.Chain

/-!
# The lexer loses nothing

`Markup.tokenize` reads any text.  This file shows that its tokens are slices of that text with
exact positions, one behind the other, and that only the inside of an opening tag is ever passed
over.

* The scanners first: each takes a front part of what it looks at (`braces_isPrefix`,
  `closingTag?_length`, `commentLength_le`, …).
* `Reads s inTag k tokens` — the tokens make up the text `s` from the offset `k` on.  Between tags
  every token starts where the one before it stopped; inside a tag something may be skipped.
* `contentStep_reads`, `tagStep_reads` — one step of the lexer reads what it takes, one case for
  every kind of thing that can stand there.
* `lexFrom_reads` — hence so does the whole run, by induction on what is left of the text.
* `tokenize_lossless` — the result, read off `Reads`.
-/

set_option autoImplicit false

namespace Atoll
namespace Markup

open Text

variable {name s cs needle : List Char} {tokens : List Token} {kind : TokenKind} {k n : Nat}
  {c : Cursor} {mode : Mode}

/-! ## Scanners take a front part -/

theorem take_takeWhile_length (p : Char → Bool) (s : List Char) :
    s.take (s.takeWhile p).length = s.takeWhile p :=
  (List.prefix_iff_eq_take.mp (List.takeWhile_prefix p)).symm

theorem takeWhile_length_le (p : Char → Bool) (s : List Char) :
    (s.takeWhile p).length ≤ s.length :=
  (List.takeWhile_prefix p).length_le

/-- What a placeholder takes stands in the text, with its closing brace if that was found. -/
theorem braces_isPrefix (depth : Nat) (s : List Char) :
    (braces depth s).1 ++ (if (braces depth s).2 then ['}'] else []) <+: s := by
  fun_induction braces depth s with
  | case1 => simp
  | case2 => simp
  | case3 depth cs content closed h ih => simpa [h] using ih
  | case4 => simp
  | case5 depth cs content closed h ih => simpa [h] using ih
  | case6 depth c cs _ _ _ _ content closed h ih => simpa [h] using ih

/-- The length of what a placeholder takes behind its opening brace. -/
theorem braces_length (depth : Nat) (s : List Char) :
    ((braces depth s).1 ++ (if (braces depth s).2 then ['}'] else [])).length =
      (braces depth s).1.length + (if (braces depth s).2 then 1 else 0) := by
  split <;> simp

/-- What is found occurs there. -/
theorem find?_spec {i : Nat} (h : find? needle s = some i) :
    i ≤ s.length ∧ needle <+: s.drop i := by
  induction s generalizing i with
  | nil =>
    rw [find?] at h
    split at h
    · rename_i hempty
      cases h
      rw [List.isEmpty_iff.1 hempty]
      exact ⟨Nat.zero_le _, List.nil_prefix⟩
    · cases h
  | cons c cs ih =>
    rw [find?] at h
    split at h
    · rename_i hlead
      cases h
      exact ⟨Nat.zero_le _, List.isPrefixOf_iff_prefix.1 hlead⟩
    · obtain ⟨j, hj, rfl⟩ := Option.map_eq_some_iff.1 h
      exact ⟨Nat.succ_le_succ (ih hj).1, (ih hj).2⟩

theorem find?_length {i : Nat} (h : find? needle s = some i) : i + needle.length ≤ s.length := by
  obtain ⟨hle, hfound⟩ := find?_spec h
  have hlength := hfound.length_le
  rw [List.length_drop] at hlength
  omega

/-- What occurs at a place is found there or before. -/
theorem exists_find?_le {p : Nat} (h : needle <+: s.drop p) : ∃ i ≤ p, find? needle s = some i := by
  induction s generalizing p with
  | nil =>
    rw [List.drop_nil] at h
    exact ⟨0, Nat.zero_le p, by rw [List.prefix_nil.1 h]; rfl⟩
  | cons c cs ih =>
    rw [find?]
    split
    · exact ⟨0, Nat.zero_le p, rfl⟩
    · rename_i hlead
      rcases p with _ | p
      · exact absurd (List.isPrefixOf_iff_prefix.2 h) hlead
      · obtain ⟨i, hle, hi⟩ := ih h
        exact ⟨i + 1, Nat.succ_le_succ hle, by rw [hi]; rfl⟩

theorem commentLength_le (h : "<!--".toList <+: s) :
    1 ≤ commentLength s ∧ commentLength s ≤ s.length := by
  have hlen : 4 ≤ s.length := h.length_le
  rw [commentLength]
  split
  · rename_i i hi
    have hle := find?_length hi
    rw [List.length_drop] at hle
    have hneedle : "-->".toList.length = 3 := rfl
    omega
  · omega

theorem textLength_le (h : s ≠ []) : textLength s ≤ s.length := by
  have hle := takeWhile_length_le (fun c => c != '<' && c != '{') (s.drop 1)
  have hpos := List.length_pos_iff.mpr h
  rw [List.length_drop] at hle
  rw [textLength]
  omega

theorem closingTag?_length (h : closingTag? s = some (name, n)) : 1 ≤ n ∧ n ≤ s.length := by
  unfold closingTag? at h
  split at h
  · rename_i cs
    simp only at h
    split at h
    · rename_i hd hname hdrop
      simp only [Option.some.injEq, Prod.mk.injEq] at h
      have hlen := congrArg List.length hdrop
      rw [List.length_drop, List.length_cons] at hlen
      rw [List.length_cons, List.length_cons]
      omega
    · cases h
  · cases h

theorem rawTextLength_le (name s : List Char) : rawTextLength name s ≤ s.length := by
  induction s with
  | nil => simp [rawTextLength]
  | cons c cs ih =>
    rw [rawTextLength, List.length_cons]
    split <;> omega

theorem unquoted_length_le (s : List Char) : (unquoted s).length ≤ s.length := by
  fun_induction unquoted s <;> simp_all

theorem fence?_length (h : fence? s = some n) : n ≤ s.length := by
  unfold fence? at h
  split at h
  · rename_i cs
    have hle := takeWhile_length_le isInlineSpace cs
    simp only at h
    simp only [List.length_cons]
    split at h
    · cases h
      omega
    · cases h
      omega
    · cases h
  · cases h

theorem frontmatter?_length {content : List Char}
    (h : frontmatter? s = some (content, n)) : content.length + n ≤ s.length := by
  fun_induction frontmatter? s generalizing content n with
  | case1 => cases h
  | case2 cs m hfence =>
    cases h
    have hle := fence?_length hfence
    simp only [List.length_cons, List.length_nil]
    omega
  | case3 cs hfence ih =>
    obtain ⟨⟨inner, m⟩, hinner, heq⟩ := Option.map_eq_some_iff.mp h
    cases heq
    have hle := ih hinner
    simp only [List.length_cons]
    omega
  | case4 c cs _ ih =>
    obtain ⟨⟨inner, m⟩, hinner, heq⟩ := Option.map_eq_some_iff.mp h
    cases heq
    have hle := ih hinner
    simp only [List.length_cons]
    omega

theorem after?_eq_some {lead rest : List Char} (h : after? lead s = some rest) :
    s = lead ++ rest := by
  unfold after? at h
  induction lead generalizing s with
  | nil => cases h; rfl
  | cons c cs ih =>
    cases s with
    | nil => cases h
    | cons d ds =>
      rw [List.isPrefixOf?] at h
      split at h
      · rename_i heq
        rw [beq_iff_eq] at heq
        rw [heq, ih h, List.cons_append]
      · cases h

/-! ## Tokens and cursors in a text -/

/-- The token takes the characters of the text from offset `a` up to offset `b`. -/
structure Token.Spans (s : List Char) (a b : Nat) (t : Token) : Prop where
  /-- It does not stop before it starts. -/
  start_le : a ≤ b
  /-- It stops inside the text. -/
  stop_le : b ≤ s.length
  /-- Its span is made of the positions of the two offsets. -/
  span : t.span = ⟨Position.ofOffset s a, Position.ofOffset s b⟩
  /-- Its text is the slice between them. -/
  raw : t.raw = String.ofList ((s.take b).drop a)

/-- The value of a token says what its text is: text and attribute names are their own value, the
value of a tag stands behind its opening bracket, that of a placeholder between its braces, and an
attribute value is its text, completed by a closing brace where that is missing. -/
def Token.Fits (t : Token) : Prop :=
  match t.kind with
  | .text => t.value = t.raw
  | .attrName => t.value = t.raw
  | .tagOpen => t.raw = "<" ++ t.value
  | .expression => t.raw = "\x7b" ++ t.value ++ (if t.incomplete then "" else "\x7d")
  | .attrValue =>
    t.value = if t.incomplete && t.raw.toList.head? == some '{' then t.raw ++ "\x7d" else t.raw
  | _ => True

/-- Whether something may be passed over behind a token: it is a part of an opening tag. -/
def TokenKind.leavesGap : TokenKind → Bool
  | .tagOpen => true
  | .attrName => true
  | .attrValue => true
  | _ => false

/-- The cursor stands at an offset of the text. -/
structure Cursor.At (s : List Char) (k : Nat) (c : Cursor) : Prop where
  /-- The offset is inside the text. -/
  le : k ≤ s.length
  /-- The cursor has the position of the offset. -/
  position : c.position = Position.ofOffset s k
  /-- The rest of the text is ahead of it. -/
  rest : c.rest = s.drop k

namespace Cursor.At

variable {s : List Char} {k n : Nat} {c : Cursor}

theorem length (h : c.At s k) : k + c.rest.length = s.length := by
  have hle := h.le
  rw [h.rest, List.length_drop]
  omega

theorem advance (h : c.At s k) (hn : n ≤ c.rest.length) : (c.advance n).At s (k + n) := by
  have hlen := h.length
  refine ⟨by omega, ?_, ?_⟩
  · rw [Cursor.advance, h.position, h.rest, Position.across_ofOffset]
  · rw [Cursor.advance, h.rest, List.drop_drop]

/-- The token of the next `n` characters spans them. -/
theorem token (h : c.At s k) (hn : n ≤ c.rest.length) (kind : TokenKind) (value : List Char)
    (incomplete : Bool) : (c.token kind value n incomplete).Spans s k (k + n) := by
  have hlen := h.length
  refine ⟨by omega, by omega, ?_, ?_⟩
  · rw [Cursor.token, h.position, (h.advance hn).position]
  · rw [Cursor.token, h.rest, List.drop_take, Nat.add_sub_cancel_left]

end Cursor.At

/-! ## What it is to read a text -/

/-- The tokens make up the text from the offset `k` on.  Inside an opening tag, and behind its
parts, something may be skipped; otherwise each token starts where the one before it stopped. -/
inductive Reads (s : List Char) : Bool → Nat → List Token → Prop where
  /-- Everything is read. -/
  | done (inTag : Bool) : Reads s inTag s.length [Token.eofAt (Position.ofOffset s s.length)]
  /-- A token stands here. -/
  | token {inTag : Bool} {a b : Nat} {t : Token} {ts : List Token} (hspan : t.Spans s a b)
      (hfits : t.Fits) (hkind : t.kind ≠ .eof) (hrest : Reads s t.kind.leavesGap b ts) :
      Reads s inTag a (t :: ts)
  /-- Something is passed over inside a tag. -/
  | skip {k : Nat} {ts : List Token} (n : Nat) (hrest : Reads s true (k + n) ts) :
      Reads s true k ts

/-- Whether the lexer stands inside an opening tag. -/
def Mode.inTag : Mode → Bool
  | .content => false
  | .tag _ => true

/-- The step reads what it takes, of which there is something. -/
structure Step.Reads (s : List Char) (inTag : Bool) (k : Nat) (step : Step) : Prop where
  /-- Something is taken. -/
  pos : 1 ≤ step.length
  /-- What is taken is there. -/
  le : k + step.length ≤ s.length
  /-- The tokens of the step go in front of whatever is read behind it. -/
  tokens : ∀ ts, Markup.Reads s step.mode.inTag (k + step.length) ts →
    Markup.Reads s inTag k (step.tokens ++ ts)

theorem Step.Reads.of {inTag : Bool} {length : Nat} (hpos : 1 ≤ length)
    (hle : k + length ≤ s.length) (htokens : ∀ ts, Markup.Reads s mode.inTag (k + length) ts →
      Markup.Reads s inTag k (tokens ++ ts)) : Step.Reads s inTag k ⟨tokens, length, mode⟩ :=
  ⟨hpos, hle, htokens⟩

/-- A step that takes one token. -/
theorem Step.Reads.single {value : List Char} {incomplete inTag : Bool} (hc : c.At s k)
    (hpos : 1 ≤ n) (hn : n ≤ c.rest.length) (hfits : (c.token kind value n incomplete).Fits)
    (hkind : kind ≠ .eof) (hmode : mode.inTag = kind.leavesGap) :
    Step.Reads s inTag k ⟨[c.token kind value n incomplete], n, mode⟩ := by
  have hlen := hc.length
  refine .of hpos (by omega) fun ts hts => ?_
  refine .token (hc.token hn kind value incomplete) hfits hkind ?_
  rw [hmode] at hts
  exact hts

/-! ## Steps between tags -/

/-- A token that is its own value fits, unless its value stands inside its text. -/
theorem fits_slice (c : Cursor) (n : Nat) (htag : kind ≠ .tagOpen)
    (hexpr : kind ≠ .expression) : (c.slice kind n).Fits := by
  cases kind <;> simp_all [Token.Fits, Cursor.slice, Cursor.token]

/-- The characters of a placeholder: its opening brace, its content, and its closing brace if that
was found. -/
theorem take_braces :
    ('{' :: cs).take (1 + (braces 0 cs).1.length + (if (braces 0 cs).2 then 1 else 0)) =
      '{' :: (braces 0 cs).1 ++ (if (braces 0 cs).2 then ['}'] else []) := by
  have htake := List.prefix_iff_eq_take.mp (braces_isPrefix 0 cs)
  rw [braces_length] at htake
  rw [Nat.add_assoc, Nat.add_comm 1, List.take_succ_cons, ← htake, List.cons_append]

theorem braces_length_le (cs : List Char) :
    1 + (braces 0 cs).1.length + (if (braces 0 cs).2 then 1 else 0) ≤ ('{' :: cs).length := by
  have hle := (braces_isPrefix 0 cs).length_le
  rw [braces_length] at hle
  rw [List.length_cons]
  omega

section

variable {s : List Char} {k : Nat} {c : Cursor}

theorem textStep_reads (hc : c.At s k) (hne : c.rest ≠ []) : (textStep c).Reads s false k := by
  have hpos : 1 ≤ textLength c.rest := by
    rw [textLength]
    omega
  exact .single hc hpos (textLength_le hne) (fits_slice c _ (by decide) (by decide)) (by decide) rfl

/-- A placeholder between tags. -/
theorem expression_fits (hrest : c.rest = '{' :: cs) :
    (c.token .expression (braces 0 cs).1
      (1 + (braces 0 cs).1.length + (if (braces 0 cs).2 then 1 else 0))
      (!(braces 0 cs).2)).Fits := by
  show String.ofList (c.rest.take _) =
    "\x7b" ++ String.ofList _ ++ (if (!(braces 0 cs).2) = true then "" else "\x7d")
  rw [hrest, take_braces]
  cases (braces 0 cs).2 with
  | true => simp [← String.toList_inj]
  | false => simp

/-- The name of an opening tag. -/
theorem tagOpen_fits (hrest : c.rest = '<' :: cs) :
    (c.token .tagOpen (cs.takeWhile isTagChar) (1 + (cs.takeWhile isTagChar).length)
      false).Fits := by
  show String.ofList (c.rest.take _) = "<" ++ String.ofList _
  rw [hrest, Nat.add_comm 1, List.take_succ_cons, take_takeWhile_length, String.ofList_cons]
  rfl

/-- **A step between tags reads what it takes.** -/
theorem contentStep_reads (hc : c.At s k) (hne : c.rest ≠ []) :
    (contentStep c).Reads s false k := by
  unfold contentStep
  split
  · rename_i cs hrest
    have hle := braces_length_le cs
    rw [← hrest] at hle
    exact .single hc (by omega) hle (expression_fits hrest) (by decide) rfl
  · split
    · rename_i name n htag
      obtain ⟨hpos, hle⟩ := closingTag?_length htag
      exact .single hc hpos hle trivial (by decide) rfl
    · exact textStep_reads hc hne
  · rename_i cs hslash hrest
    simp only
    split
    · have hle : 1 + (cs.takeWhile isTagChar).length ≤ c.rest.length := by
        have hle := takeWhile_length_le isTagChar cs
        rw [hrest, List.length_cons]
        omega
      exact .single hc (by omega) hle (tagOpen_fits hrest) (by decide) rfl
    · split
      · rename_i hcomment
        obtain ⟨hpos, hle⟩ := commentLength_le (List.isPrefixOf_iff_prefix.mp hcomment)
        exact .single hc hpos hle (fits_slice c _ (by decide) (by decide)) (by decide) rfl
      · exact textStep_reads hc hne
  · exact textStep_reads hc hne

/-! ## Steps inside tags -/

/-- A value in braces. -/
theorem braceValue_fits (hrest : c.rest = '{' :: cs) :
    (c.token .attrValue ('{' :: (braces 0 cs).1 ++ ['}'])
      (1 + (braces 0 cs).1.length + (if (braces 0 cs).2 then 1 else 0))
      (!(braces 0 cs).2)).Fits := by
  show String.ofList ('{' :: (braces 0 cs).1 ++ ['}']) =
    if (!(braces 0 cs).2 && (String.ofList (c.rest.take _)).toList.head? == some '{') = true then
      String.ofList (c.rest.take _) ++ "\x7d" else String.ofList (c.rest.take _)
  rw [hrest, take_braces]
  cases (braces 0 cs).2 with
  | true => simp
  | false => simp [← String.toList_inj]

/-- A quoted value whose closing quote is missing. -/
theorem openQuote_fits {q : Char} (hrest : c.rest = q :: cs) (hq : q ≠ '{')
    (n : Nat) : (c.token .attrValue (c.rest.take (n + 1)) (n + 1) true).Fits := by
  show String.ofList (c.rest.take (n + 1)) =
    if (true && (String.ofList (c.rest.take (n + 1))).toList.head? == some '{') = true then
      String.ofList (c.rest.take (n + 1)) ++ "\x7d" else String.ofList (c.rest.take (n + 1))
  rw [hrest, List.take_succ_cons]
  simp [hq]

/-- The value of an attribute is a token of its own, which may be empty. -/
theorem valueToken_spans (hc : c.At s k) :
    (valueToken c).2 ≤ c.rest.length ∧ (valueToken c).1.Spans s k (k + (valueToken c).2) ∧
      (valueToken c).1.Fits ∧ (valueToken c).1.kind = .attrValue := by
  unfold valueToken
  split
  · rename_i cs hrest
    have hle := braces_length_le cs
    rw [← hrest] at hle
    exact ⟨hle, hc.token hle _ _ _, braceValue_fits hrest, rfl⟩
  · rename_i q cs hbrace hrest
    split
    · rename_i hquote
      have hq : q ≠ '{' := by
        rintro rfl
        exact hbrace rfl
      simp only
      split
      · rename_i hclosed
        have hle : (cs.takeWhile (· != q)).length + 2 ≤ c.rest.length := by
          rw [hrest, List.length_cons]
          omega
        exact ⟨hle, hc.token hle _ _ _, fits_slice c _ (by decide) (by decide), rfl⟩
      · have hle : cs.length + 1 ≤ c.rest.length := by
          rw [hrest, List.length_cons]
        exact ⟨hle, hc.token hle _ _ _, openQuote_fits hrest hq _, rfl⟩
    · have hle := unquoted_length_le c.rest
      exact ⟨hle, hc.token hle _ _ _, fits_slice c _ (by decide) (by decide), rfl⟩
  · have hle : 0 ≤ c.rest.length := Nat.zero_le _
    exact ⟨hle, hc.token hle _ _ _, fits_slice c _ (by decide) (by decide), rfl⟩

/-- An attribute: its name and, behind an equals sign, its value. -/
theorem attributeTokens_reads {ch : Char} (hc : c.At s k) (hrest : c.rest = ch :: cs)
    (hch : isAttrChar ch = true) (name : List Char) :
    Step.Reads s true k ⟨(attributeTokens c).1, (attributeTokens c).2, .tag name⟩ := by
  have hlen := hc.length
  have hname : (c.rest.takeWhile isAttrChar).length ≤ c.rest.length := takeWhile_length_le _ _
  have hpos : 1 ≤ (c.rest.takeWhile isAttrChar).length := by
    rw [hrest, List.takeWhile_cons_of_pos hch, List.length_cons]
    omega
  have hspan := hc.token hname .attrName (c.rest.take (c.rest.takeWhile isAttrChar).length) false
  have hfits := fits_slice c (c.rest.takeWhile isAttrChar).length
    (by decide : TokenKind.attrName ≠ .tagOpen) (by decide)
  have hkind : TokenKind.attrName ≠ .eof := by decide
  unfold attributeTokens
  simp only
  split
  · rename_i rest hequals
    have hdrop := congrArg List.length hequals
    rw [List.length_drop, List.length_cons] at hdrop
    have hspace := takeWhile_length_le isTagSpace rest
    generalize hgap : ((c.rest.drop (c.rest.takeWhile isAttrChar).length).takeWhile
      isInlineSpace).length = gap at hdrop ⊢
    generalize hbefore : (c.rest.takeWhile isAttrChar).length + gap + 1 +
      (rest.takeWhile isTagSpace).length = before
    have hvalue := hc.advance (show before ≤ c.rest.length by omega)
    have hvlen := hvalue.length
    obtain ⟨hle, hvspan, hvfits, hvkind⟩ := valueToken_spans hvalue
    refine .of (by omega) (by omega) fun ts hts => ?_
    -- the equals sign and the blanks around it are passed over
    refine .token hspan hfits hkind (.skip (before - (c.rest.takeWhile isAttrChar).length) ?_)
    have hoffset : k + (c.rest.takeWhile isAttrChar).length +
        (before - (c.rest.takeWhile isAttrChar).length) = k + before := by omega
    rw [hoffset]
    refine .token hvspan hvfits (by rw [hvkind]; decide) ?_
    rw [hvkind, Nat.add_assoc]
    exact hts
  · exact .of hpos (by omega) fun ts hts => .token hspan hfits hkind hts

/-- The `>` of an opening tag, and the content of a raw-text element behind it. -/
theorem tagEnd_reads {inner : Nat} (hc : c.At s k) (hrest : c.rest = '>' :: cs)
    (hinner : inner ≤ cs.length) :
    Step.Reads s true k ⟨c.slice .tagClose 1 ::
      (if inner == 0 then [] else [(c.advance 1).slice .text inner]), 1 + inner, .content⟩ := by
  have hlen := hc.length
  have hone : 1 ≤ c.rest.length := by
    rw [hrest, List.length_cons]
    omega
  have hclose : (c.slice .tagClose 1).Spans s k (k + 1) := hc.token hone _ _ _
  have hrestlen := congrArg List.length hrest
  rw [List.length_cons] at hrestlen
  refine .of (by omega) (by omega) fun ts hts => ?_
  refine .token hclose trivial (by simp [Cursor.slice, Cursor.token]) ?_
  split
  · rename_i hzero
    rw [beq_iff_eq] at hzero
    subst hzero
    exact hts
  · have hcontent := hc.advance hone
    have hcontentlen := hcontent.length
    have hfits := fits_slice (c.advance 1) inner
      (by decide : TokenKind.text ≠ .tagOpen) (by decide)
    refine .token (hcontent.token (by omega) _ _ _) hfits (by simp [Cursor.slice, Cursor.token]) ?_
    rw [Nat.add_assoc]
    exact hts

/-- Something passed over in front of a step inside a tag. -/
theorem Step.Reads.after {length : Nat} (h : Step.Reads s true (k + n) ⟨tokens, length, mode⟩) :
    Step.Reads s true k ⟨tokens, n + length, mode⟩ := by
  have hpos : 1 ≤ length := h.pos
  have hle : k + n + length ≤ s.length := h.le
  refine .of (by omega) (by omega) fun ts hts => .skip n (h.tokens ts ?_)
  rw [Nat.add_assoc]
  exact hts

/-- A step inside a tag that passes something over. -/
theorem Step.Reads.nothing (hpos : 1 ≤ n) (hle : k + n ≤ s.length) :
    Step.Reads s true k ⟨[], n, .tag name⟩ :=
  .of hpos hle fun _ hts => .skip n hts

/-- **A step inside an opening tag reads what it takes.** -/
theorem tagStep_reads (hc : c.At s k) (hne : c.rest ≠ []) (name : List Char) :
    (tagStep name c).Reads s true k := by
  have hlen := hc.length
  have hspace := takeWhile_length_le isTagSpace c.rest
  have hat := hc.advance hspace
  have hatlen := hat.length
  unfold tagStep
  simp only
  split
  · -- only blanks are left
    rename_i hrest
    have hrestlen := congrArg List.length hrest
    rw [List.length_nil] at hrestlen
    have hpos := List.length_pos_iff.mpr hne
    exact .nothing (by omega) (by omega)
  · rename_i hrest
    have htwo := congrArg List.length hrest
    rw [List.length_cons, List.length_cons] at htwo
    exact .after (.single hat (by omega) (by omega) trivial (by decide) rfl)
  · rename_i cs hrest
    rw [Nat.add_assoc]
    refine .after (tagEnd_reads hat hrest ?_)
    split
    · exact rawTextLength_le name cs
    · exact Nat.zero_le _
  · rename_i cs hrest
    have hle := braces_length_le cs
    rw [← hrest] at hle
    exact .nothing (by omega) (by omega)
  · rename_i ch cs _ _ _ hrest
    split
    · rename_i hch
      exact .after (attributeTokens_reads hat hrest hch name)
    · have hrestlen := congrArg List.length hrest
      rw [List.length_cons] at hrestlen
      exact .nothing (by omega) (by omega)

end

/-! ## Whole runs -/

/-- One step in either mode. -/
theorem Mode.step_reads (hc : c.At s k) (hne : c.rest ≠ [])
    (mode : Mode) : (mode.step c).Reads s mode.inTag k := by
  cases mode with
  | content => exact contentStep_reads hc hne
  | tag name => exact tagStep_reads hc hne name

/-- **A run of the lexer reads the rest of the text.** -/
theorem lexFrom_reads (hc : c.At s k) (mode : Mode) : Reads s mode.inTag k (lexFrom mode c) := by
  fun_induction lexFrom mode c generalizing k with
  | case1 mode c hrest =>
    have hlen := hc.length
    rw [hrest, List.length_nil] at hlen
    obtain rfl : k = s.length := hlen
    rw [hc.position]
    exact .done _
  | case2 mode c hne step =>
    rename_i ih
    have hstep := Mode.step_reads hc hne mode
    have hlen := hc.length
    have hle := hstep.le
    refine hstep.tokens _ (ih ?_)
    rw [Nat.max_eq_left hstep.pos]
    exact hc.advance (by omega)

/-- The script at the top of a document, with its fences. -/
theorem frontmatterStep?_spans {t : Token} (hc : c.At s k) (h : frontmatterStep? c = some (t, n)) :
    n ≤ c.rest.length ∧ t.Spans s k (k + n) ∧ t.kind = .frontmatter := by
  unfold frontmatterStep? at h
  split at h
  · rename_i cs hafter
    obtain ⟨⟨content, fence⟩, hcontent, heq⟩ := Option.map_eq_some_iff.mp h
    have hlen := congrArg List.length (after?_eq_some hafter)
    have hle := frontmatter?_length hcontent
    have hfence : "---".toList.length = 3 := rfl
    rw [List.length_append, hfence] at hlen
    cases heq
    exact ⟨by omega, hc.token (by omega) _ _ _, rfl⟩
  · cases h

/-- The tokens of a text make it up from its beginning. -/
theorem lex_reads (s : List Char) : Reads s false 0 (lex s) := by
  have hstart : (Cursor.ofText s).At s 0 := ⟨Nat.zero_le _, rfl, rfl⟩
  unfold lex
  simp only
  split
  · rename_i t n hfront
    obtain ⟨hle, hspan, hkind⟩ := frontmatterStep?_spans hstart hfront
    have hfits : t.Fits := by
      rw [Token.Fits, hkind]
      trivial
    refine .token hspan hfits (by rw [hkind]; decide) ?_
    rw [hkind]
    exact lexFrom_reads (hstart.advance hle) .content
  · exact lexFrom_reads hstart .content

/-! ## Nothing is lost -/

/-- The tokens are a lossless reading of the text. -/
structure Lossless (s : List Char) (ts : List Token) : Prop where
  /-- They end in one end mark, which stands at the end of the text. -/
  ends : ∃ body last, ts = body ++ [last] ∧ last.kind = .eof ∧
    last.span.start.offset = (s.length : Int) ∧ ∀ t ∈ body, t.kind ≠ .eof
  /-- The text of each is the slice of the source between its two offsets. -/
  raw : ∀ t ∈ ts, t.raw =
    String.ofList ((s.take t.span.stop.offset.toNat).drop t.span.start.offset.toNat)
  /-- Lines and columns are those of the offsets. -/
  positions : ∀ t ∈ ts, t.span.start.Exact s ∧ t.span.stop.Exact s
  /-- The first of them starts at the beginning. -/
  starts : ∀ t ∈ ts.head?, t.span.start.offset = 0
  /-- No token stops before it starts. -/
  forward : ∀ t ∈ ts, t.span.start.offset ≤ t.span.stop.offset
  /-- Each stops before the next one starts, and only parts of opening tags leave a gap. -/
  ordered : ts.IsChain fun t u => t.span.stop.offset ≤ u.span.start.offset ∧
    (t.span.stop.offset < u.span.start.offset → t.kind.leavesGap = true)
  /-- The value of each says what its text is. -/
  fits : ∀ t ∈ ts, t.Fits

section

variable {s : List Char} {inTag : Bool} {k a b : Nat} {ts : List Token} {t : Token}

theorem Token.Spans.start_offset (h : t.Spans s a b) : t.span.start.offset = a := by
  rw [h.span]
  exact Position.offset_ofOffset s a (h.start_le.trans h.stop_le)

theorem Token.Spans.stop_offset (h : t.Spans s a b) : t.span.stop.offset = b := by
  rw [h.span]
  exact Position.offset_ofOffset s b h.stop_le

theorem eofAt_spans (s : List Char) :
    (Token.eofAt (Position.ofOffset s s.length)).Spans s s.length s.length := by
  refine ⟨le_refl _, le_refl _, rfl, ?_⟩
  simp [Token.eofAt]

/-- Every token of a reading is a slice of the text, and its value fits. -/
theorem Reads.spans (h : Reads s inTag k ts) : ∀ t ∈ ts, (∃ a b, t.Spans s a b) ∧ t.Fits := by
  induction h with
  | done =>
    intro t ht
    rw [List.mem_singleton.mp ht]
    exact ⟨⟨_, _, eofAt_spans s⟩, trivial⟩
  | token hspan hfits _ _ ih =>
    intro t ht
    rcases List.mem_cons.mp ht with rfl | ht
    · exact ⟨⟨_, _, hspan⟩, hfits⟩
    · exact ih t ht
  | skip _ _ ih => exact ih

/-- A reading ends in one end mark. -/
theorem Reads.ends (h : Reads s inTag k ts) : ∃ body last, ts = body ++ [last] ∧
    last.kind = .eof ∧ last.span.start.offset = (s.length : Int) ∧ ∀ t ∈ body, t.kind ≠ .eof := by
  induction h with
  | done => exact ⟨[], _, rfl, rfl, (eofAt_spans s).start_offset, by simp⟩
  | token _ _ hkind _ ih =>
    obtain ⟨body, last, rfl, heof, hoffset, hbody⟩ := ih
    exact ⟨_ :: body, last, rfl, heof, hoffset, List.forall_mem_cons.mpr ⟨hkind, hbody⟩⟩
  | skip _ _ ih => exact ih

/-- Between tags the first token of a reading starts where the reading does; inside a tag it
starts there or later. -/
theorem Reads.head (h : Reads s inTag k ts) : ∀ t ∈ ts.head?,
    (k : Int) ≤ t.span.start.offset ∧ ((k : Int) < t.span.start.offset → inTag = true) := by
  induction h with
  | done =>
    intro t ht
    cases ht
    rw [(eofAt_spans s).start_offset]
    exact ⟨Int.le_refl _, fun hlt => absurd hlt (Int.lt_irrefl _)⟩
  | token hspan =>
    intro t ht
    cases ht
    rw [hspan.start_offset]
    exact ⟨Int.le_refl _, fun hlt => absurd hlt (Int.lt_irrefl _)⟩
  | skip n _ ih =>
    intro t ht
    obtain ⟨hle, _⟩ := ih t ht
    exact ⟨by omega, fun _ => rfl⟩

/-- The tokens of a reading follow one another. -/
theorem Reads.ordered (h : Reads s inTag k ts) : ts.IsChain fun t u =>
    t.span.stop.offset ≤ u.span.start.offset ∧
      (t.span.stop.offset < u.span.start.offset → t.kind.leavesGap = true) := by
  induction h with
  | done => exact .singleton _
  | token hspan _ _ hrest ih =>
    refine List.isChain_cons.mpr ⟨fun u hu => ?_, ih⟩
    rw [hspan.stop_offset]
    exact hrest.head u hu
  | skip _ _ ih => exact ih

end

/-- **Tokenizing loses nothing and its positions are exact**, whatever the text: the tokens are
consecutive slices of the text with unified line ends, and only the inside of opening tags is ever
passed over. -/
theorem tokenize_lossless (source : String) :
    Lossless (unifyNewlines source.toList) (tokenize source) := by
  have h := lex_reads (unifyNewlines source.toList)
  refine ⟨h.ends, fun t ht => ?_, fun t ht => ?_, fun t ht => ?_, fun t ht => ?_, h.ordered,
    fun t ht => (h.spans t ht).2⟩
  · obtain ⟨⟨a, b, hspan⟩, _⟩ := h.spans t ht
    rw [hspan.start_offset, hspan.stop_offset, Int.toNat_natCast, Int.toNat_natCast]
    exact hspan.raw
  · obtain ⟨⟨a, b, hspan⟩, _⟩ := h.spans t ht
    rw [hspan.span]
    exact ⟨Position.exact_ofOffset (hspan.start_le.trans hspan.stop_le),
      Position.exact_ofOffset hspan.stop_le⟩
  · obtain ⟨hle, hlt⟩ := h.head t ht
    by_contra hne
    exact Bool.false_ne_true (hlt (by omega))
  · obtain ⟨⟨a, b, hspan⟩, _⟩ := h.spans t ht
    rw [hspan.start_offset, hspan.stop_offset]
    exact Int.ofNat_le.mpr hspan.start_le

end Markup
end Atoll
