import Atoll.Proofs.Acceptance
import Atoll.Proofs.LineFilter
import Atoll.Proofs.Shape

/-!
# The line that a diagnostic shows

A diagnostic is shown with the source line it is about and carets under the place.  The lexer counts
lines by newlines.  The excerpt looks the line up in a listing, which is cut at every kind of line
end.  This file works out both, and says when they mean the same line.

* `Text.exists_line`, `Position.across_joinLines` — the line of a character, and its position.
* `Text.staysWhole`, `Text.listing_joinLines` — a line that is one line of the listing too.
* `sourceLine_of_lines` — behind such lines the listing has the line that is asked for.
* `Token.isBlamed` — the tokens that a diagnostic can be about.  Each starts with a character that
  ends no line (`lex_blamed`), and **every diagnostic starts where one of them does**
  (`start_diagnostics`), by an invariant of the reader that each token keeps.
* `format_shows` — what is shown for a diagnostic, and where its first caret stands.
-/

set_option autoImplicit false

namespace Atoll
namespace Text

variable {body rest : List Char}

/-! ## The line of a character -/

/-- The line of a character: the lines in front of it, and what is to its left. -/
theorem exists_line {s : List Char} {k : Nat} {c : Char} (h : s[k]? = some c) (hc : c ≠ '\n') :
    ∃ front left right back, lines s = front ++ (left ++ c :: right) :: back ∧
      s.take k = joinLines (front ++ [left]) := by
  obtain ⟨front, left, hsplit⟩ := exists_lines_concat (s.take k)
  obtain ⟨hk, rfl⟩ := List.getElem?_eq_some_iff.1 h
  obtain ⟨first, back, hrest⟩ := List.exists_cons_of_ne_nil (lines_ne_nil (s.drop (k + 1)))
  refine ⟨front, left, first, back, ?_, by rw [← hsplit, joinLines_lines]⟩
  have hlines := lines_append_lines hsplit (lines_cons hc hrest)
  rwa [← List.drop_eq_getElem_cons hk, List.take_append_drop] at hlines

/-! ## Listings -/

/-- Whether a line of a text is one line of its listing: no other line end is in it, a carriage
return in front of its newline aside. -/
def staysWhole (l : List Char) : Bool :=
  !l.any endsListingLine || (l.getLast? == some '\r' && !l.dropLast.any endsListingLine)

theorem exists_of_staysWhole {l : List Char} (h : staysWhole l = true) :
    ∃ body, body.any endsListingLine = false ∧ (l = body ∨ l = body ++ ['\r']) := by
  rw [staysWhole, Bool.or_eq_true, Bool.and_eq_true, beq_iff_eq, Bool.not_eq_true',
    Bool.not_eq_true'] at h
  rcases h with h | ⟨hlast, h⟩
  · exact ⟨l, h, .inl rfl⟩
  · exact ⟨l.dropLast, h, .inr (List.dropLast_append_getLast? _ hlast).symm⟩

/-- Characters that end no line go to the current line. -/
theorem listingFrom_append (h : body.any endsListingLine = false) (line rest : List Char) :
    listingFrom line (body ++ rest) = listingFrom (body.reverse ++ line) rest := by
  induction body generalizing line with
  | nil => rfl
  | cons c cs ih =>
    rw [List.any_cons, Bool.or_eq_false_iff] at h
    have hreturn : c ≠ '\r' := by
      rintro rfl
      exact Bool.noConfusion h.1
    rw [List.cons_append, listingFrom, if_neg (by simp [h.1]), ih h.2]
    · simp
    · exact fun _ hc _ => hreturn hc

theorem listingFrom_newline (line rest : List Char) :
    listingFrom line ('\n' :: rest) = (line.reverse ++ ['\n']) :: listing rest := by
  rw [listingFrom, if_pos (by decide), List.reverse_cons]
  · rfl
  · exact fun _ hc _ => absurd hc (by decide)

theorem listingFrom_returnNewline (line rest : List Char) :
    listingFrom line ('\r' :: '\n' :: rest) = (line.reverse ++ ['\r', '\n']) :: listing rest := by
  rw [listingFrom, List.reverse_cons, List.reverse_cons, List.append_assoc]
  rfl

theorem listingFrom_return (line : List Char) (h : rest.head? ≠ some '\n') :
    listingFrom line ('\r' :: rest) = (line.reverse ++ ['\r']) :: listing rest := by
  rw [listingFrom, if_pos (by decide), List.reverse_cons]
  · rfl
  · rintro more - rfl
    exact h rfl

theorem listing_line {l : List Char} (h : staysWhole l = true) (rest : List Char) :
    listing (l ++ '\n' :: rest) = (l ++ ['\n']) :: listing rest := by
  obtain ⟨body, hbody, rfl | rfl⟩ := exists_of_staysWhole h
  · rw [listing, listingFrom_append hbody, listingFrom_newline]
    simp
  · rw [listing, List.append_assoc, listingFrom_append hbody]
    exact (listingFrom_returnNewline _ rest).trans (by simp)

/-- **Lines that stay whole are the first lines of the listing.** -/
theorem listing_joinLines {front : List (List Char)} (h : ∀ l ∈ front, staysWhole l = true)
    {more : List (List Char)} (hmore : more ≠ []) :
    listing (joinLines (front ++ more)) =
      front.map (· ++ ['\n']) ++ listing (joinLines more) := by
  induction front with
  | nil => rfl
  | cons l ls ih =>
    obtain ⟨hl, hls⟩ := List.forall_mem_cons.1 h
    rw [List.cons_append, joinLines_cons l (by simp [hmore]), listing_line hl, ih hls]
    rfl

/-- What follows a line in a text: nothing, or a newline. -/
theorem joinLines_eq_append (l : List Char) (ls : List (List Char)) :
    ∃ rest, joinLines (l :: ls) = l ++ rest ∧ (rest = [] ∨ ∃ more, rest = '\n' :: more) := by
  by_cases h : ls = []
  · exact ⟨[], by rw [h, joinLines_singleton, List.append_nil], .inl rfl⟩
  · exact ⟨_, joinLines_cons l h, .inr ⟨_, rfl⟩⟩

/-- The first line of a listing goes up to the first line end, here one that only carriage returns
follow on the line. -/
theorem head_listing (h : body.any endsListingLine = false) (n : Nat)
    (hrest : rest = [] ∨ ∃ more, rest = '\n' :: more) :
    ∃ ending, (listing (body ++ (List.replicate n '\r' ++ rest))).head?.getD [] = body ++ ending ∧
      (ending = [] ∨ ending = ['\n'] ∨ ending = ['\r'] ∨ ending = ['\r', '\n']) := by
  rw [listing, listingFrom_append h, List.append_nil]
  rcases n with _ | n
  · rcases hrest with rfl | ⟨more, rfl⟩
    · refine ⟨[], ?_, .inl rfl⟩
      rw [List.replicate_zero, List.nil_append, listingFrom]
      split
      · rename_i hempty
        simpa using hempty.symm
      · simp
    · refine ⟨['\n'], ?_, .inr (.inl rfl)⟩
      rw [List.replicate_zero, List.nil_append, listingFrom_newline]
      simp
  · rw [List.replicate_succ, List.cons_append]
    by_cases hnext : (List.replicate n '\r' ++ rest).head? = some '\n'
    · obtain ⟨more, hmore⟩ := List.head?_eq_some_iff.1 hnext
      refine ⟨['\r', '\n'], ?_, .inr (.inr (.inr rfl))⟩
      rw [hmore, listingFrom_returnNewline]
      simp
    · refine ⟨['\r'], ?_, .inr (.inr (.inl rfl))⟩
      rw [listingFrom_return _ hnext]
      simp

end Text

namespace Position

open Text

/-! ## Positions of lines -/

theorem across_line (p : Position) {l : List Char} (hl : '\n' ∉ l) :
    p.across l = ⟨p.line, p.column + l.length, p.offset + l.length⟩ := by
  induction l generalizing p with
  | nil => simp [across]
  | cons c cs ih =>
    rw [List.mem_cons, not_or] at hl
    have hc : (c == '\n') = false := by simpa using Ne.symm hl.1
    rw [across_cons, ih _ hl.2, next, hc]
    simp only [Bool.false_eq_true, if_false, List.length_cons, mk.injEq, true_and]
    omega

/-- **A place is counted by the lines before it and the characters to its left.** -/
theorem across_joinLines (p : Position) (hp : p.column = 1) {front : List (List Char)}
    (hfront : ∀ l ∈ front, '\n' ∉ l) {left : List Char} (hleft : '\n' ∉ left) :
    (p.across (joinLines (front ++ [left]))).line = p.line + front.length ∧
      (p.across (joinLines (front ++ [left]))).column = left.length + 1 := by
  induction front generalizing p with
  | nil =>
    rw [List.nil_append, joinLines_singleton, across_line p hleft, hp]
    simp only [List.length_nil]
    omega
  | cons l ls ih =>
    obtain ⟨hl, hls⟩ := List.forall_mem_cons.1 hfront
    rw [List.cons_append, joinLines_cons l (by simp), across_append, across_line p hl, across_cons]
    obtain ⟨hline, hcolumn⟩ :=
      ih (next ⟨p.line, p.column + l.length, p.offset + l.length⟩ '\n') rfl hls
    refine ⟨hline.trans ?_, hcolumn⟩
    simp only [next, beq_self_eq_true, if_true, List.length_cons]
    omega

end Position

namespace Markup

open Text

variable {c : Char} {s : List Char} {head : Head}

/-! ## The source line -/

theorem dropTrailing_concat (c : Char) (s : List Char) :
    dropTrailing c (s ++ [c]) = dropTrailing c s := by
  simp [dropTrailing]

theorem dropTrailing_of_getLast? (h : s.getLast? ≠ some c) : dropTrailing c s = s := by
  rw [dropTrailing, List.getLast?_eq_head?_reverse] at *
  cases hs : s.reverse with
  | nil => simpa using hs.symm
  | cons d ds =>
    rw [hs] at h
    rw [List.dropWhile_cons_of_neg (by simpa using h), ← hs, List.reverse_reverse]

/-- What is taken off the end of a text. -/
theorem exists_dropTrailing (c : Char) (s : List Char) :
    ∃ n, s = dropTrailing c s ++ List.replicate n c := by
  have hsplit := congrArg List.reverse
    (List.takeWhile_append_dropWhile (p := (· == c)) (l := s.reverse))
  rw [List.reverse_append, List.reverse_reverse] at hsplit
  refine ⟨_, hsplit.symm.trans (congrArg _ (List.eq_replicate_of_mem ?_))⟩
  intro d hd
  simpa using List.mem_takeWhile_imp (List.mem_reverse.1 hd)

/-- Any other character stays where it is. -/
theorem getElem?_dropTrailing {d : Char} {i : Nat} (h : s[i]? = some d)
    (hd : d ≠ c) : (dropTrailing c s)[i]? = some d := by
  obtain ⟨n, hs⟩ := exists_dropTrailing c s
  generalize dropTrailing c s = body at hs ⊢
  subst hs
  by_cases hi : i < body.length
  · rwa [List.getElem?_append_left hi] at h
  · rw [List.getElem?_append_right (by omega), List.getElem?_replicate] at h
    split at h
    · exact absurd (Option.some.inj h).symm hd
    · cases h

/-- The character at the end of a text that ends no line is neither a newline nor a carriage
return. -/
theorem dropTrailing_of_any (hc : endsListingLine c = true)
    (h : s.any endsListingLine = false) : dropTrailing c s = s := by
  refine dropTrailing_of_getLast? fun hlast => ?_
  exact absurd hc (List.any_eq_false.1 h c (List.mem_of_getLast? hlast))

/-- **Behind lines that stay whole, the listing has the line that is asked for.** -/
theorem sourceLine_of_lines {source : String} {front back : List (List Char)} {line : List Char}
    (hlines : lines source.toList = front ++ line :: back)
    (hfront : ∀ l ∈ front, staysWhole l = true)
    (hline : (dropTrailing '\r' line).any endsListingLine = false) :
    sourceLine source (front.length + 1) = dropTrailing '\r' line := by
  obtain ⟨n, hreturns⟩ := exists_dropTrailing '\r' line
  generalize dropTrailing '\r' line = body at hline hreturns
  obtain ⟨rest, hjoin, hrest⟩ := joinLines_eq_append line back
  obtain ⟨ending, hhead, hending⟩ := head_listing hline n hrest
  have hlisting : Text.listing source.toList =
      front.map (· ++ ['\n']) ++ Text.listing (body ++ (List.replicate n '\r' ++ rest)) := by
    rw [← joinLines_lines source.toList, hlines, listing_joinLines hfront (by simp), hjoin,
      hreturns, List.append_assoc]
  have hfound : (Text.listing source.toList)[front.length]?.getD [] = body ++ ending := by
    rw [hlisting, List.getElem?_append_right (by simp), ← hhead, List.head?_eq_getElem?]
    simp
  have hnewline := dropTrailing_of_any (c := '\n') (by decide) hline
  have hreturn := dropTrailing_of_any (c := '\r') (by decide) hline
  have hkept : dropTrailing '\n' (body ++ ['\r']) = body ++ ['\r'] :=
    dropTrailing_of_getLast? (by simp)
  have hindex : ((front.length : Int) + 1 - 1).toNat = front.length := by omega
  rw [sourceLine, if_neg (by omega), hindex]
  dsimp only
  rw [hfound]
  rcases hending with rfl | rfl | rfl | rfl
  · rw [List.append_nil, hnewline, hreturn]
  · rw [dropTrailing_concat, hnewline, hreturn]
  · rw [hkept, dropTrailing_concat, hreturn]
  · rw [List.append_cons, dropTrailing_concat, hkept, dropTrailing_concat, hreturn]

/-! ## What a diagnostic can be about -/

/-- Whether the value of a token starts with a brace or a quote. -/
def Token.isDelimited (t : Token) : Bool :=
  ['{', '\'', '"'].any (t.value.toList.head? == some ·)

/-- Whether a diagnostic can start at a token: an opening or a closing tag, a placeholder, a
directive, or a value in quotes or braces. -/
def Token.isBlamed (t : Token) : Bool :=
  match t.kind with
  | .tagOpen => true
  | .tagClose => t.value != ">"
  | .expression => true
  | .attrName => (directiveName? t.value).isSome
  | .attrValue => t.isDelimited
  | _ => false

/-- A closing tag starts with a bracket. -/
def Token.Opens (t : Token) : Prop :=
  t.isClosingTag = true → t.raw.toList.head? = some '<'

theorem Token.opens_of_kind {t : Token} (h : t.kind ≠ .tagClose) : t.Opens :=
  fun hclosing => absurd (Token.kind_of_isClosingTag hclosing) h

theorem Cursor.opens_slice (c : Cursor) (n : Nat) {kind : TokenKind} (h : kind ≠ .tagClose) :
    (c.slice kind n).Opens :=
  Token.opens_of_kind h

theorem contentStep_opens (c : Cursor) : ∀ t ∈ (contentStep c).tokens, t.Opens := by
  unfold contentStep textStep
  split
  · exact List.forall_mem_singleton.2 (Token.opens_of_kind (by simp [Cursor.token]))
  · rename_i cs hrest
    split
    · rename_i name n htag
      obtain ⟨n, rfl⟩ := Nat.exists_eq_add_of_le' (closingTag?_length htag).1
      refine List.forall_mem_singleton.2 fun _ => ?_
      rw [Cursor.token, hrest, String.toList_ofList, List.take_succ_cons, List.head?_cons]
    · exact List.forall_mem_singleton.2 (c.opens_slice _ (by decide))
  · dsimp only
    split
    · exact List.forall_mem_singleton.2 (Token.opens_of_kind (by simp [Cursor.token]))
    split
    · exact List.forall_mem_singleton.2 (c.opens_slice _ (by decide))
    · exact List.forall_mem_singleton.2 (c.opens_slice _ (by decide))
  · exact List.forall_mem_singleton.2 (c.opens_slice _ (by decide))

theorem attributeTokens_opens (c : Cursor) : ∀ t ∈ (attributeTokens c).1, t.Opens := by
  have hname : (c.slice .attrName (c.rest.takeWhile isAttrChar).length).Opens :=
    c.opens_slice _ (by decide)
  unfold attributeTokens
  dsimp only
  split
  · refine List.forall_mem_cons.2 ⟨hname, List.forall_mem_singleton.2 (Token.opens_of_kind ?_)⟩
    rw [valueToken_kind]
    decide
  · exact List.forall_mem_singleton.2 hname

/-- The end of an opening tag is no closing tag, though both are of one kind. -/
theorem tagStep_opens (name : List Char) (c : Cursor) : ∀ t ∈ (tagStep name c).tokens, t.Opens := by
  unfold tagStep
  dsimp only
  split
  · exact List.forall_mem_nil _
  · exact List.forall_mem_singleton.2 (Cursor.opens_slice _ _ (by decide))
  · rename_i hrest
    refine List.forall_mem_cons.2 ⟨fun hclosing => ?_, ?_⟩
    · simp [Token.isClosingTag, Cursor.slice, Cursor.token, hrest] at hclosing
    · generalize (if isRawTextElement (String.ofList name) then _ else 0) = inner
      split
      · exact List.forall_mem_nil _
      · exact List.forall_mem_singleton.2 (Cursor.opens_slice _ _ (by decide))
  · exact List.forall_mem_nil _
  · split
    · exact attributeTokens_opens _
    · exact List.forall_mem_nil _

theorem lexFrom_opens (mode : Mode) (c : Cursor) : ∀ t ∈ lexFrom mode c, t.Opens := by
  fun_induction lexFrom mode c with
  | case1 mode c hrest =>
    exact List.forall_mem_singleton.2 (Token.opens_of_kind (by simp [Token.eofAt]))
  | case2 mode c hne step ih =>
    refine List.forall_mem_append.2 ⟨?_, ih⟩
    cases mode with
    | content => exact contentStep_opens c
    | tag name => exact tagStep_opens name c

theorem lex_opens (s : List Char) : ∀ t ∈ lex s, t.Opens := by
  unfold lex
  dsimp only
  split
  · rename_i t n hfront
    refine List.forall_mem_cons.2 ⟨Token.opens_of_kind ?_, lexFrom_opens _ _⟩
    rw [(frontmatterStep?_kind hfront).1]
    decide
  · exact lexFrom_opens _ _

/-- A directive starts with a letter. -/
theorem head?_of_directiveName? {name : String} (h : (directiveName? name).isSome = true) :
    name.toList.head? = some 'c' := by
  rw [directiveName?] at h
  split at h
  · rename_i c cs hafter
    rw [after?_eq_some hafter]
    rfl
  · cases h

/-- What a token starts with that a diagnostic can be about. -/
theorem Token.Fits.head?_raw {t : Token} (hfits : t.Fits) (hopens : t.Opens)
    (hblamed : t.isBlamed = true) :
    ∃ c, t.raw.toList.head? = some c ∧ endsListingLine c = false := by
  rw [Token.isBlamed] at hblamed
  rw [Token.Fits] at hfits
  split at hblamed
  · rename_i hkind
    rw [hkind] at hfits
    exact ⟨'<', by simp [hfits], by decide⟩
  · rename_i hkind
    exact ⟨'<', hopens (by simpa [Token.isClosingTag, hkind] using hblamed), by decide⟩
  · rename_i hkind
    rw [hkind] at hfits
    exact ⟨'{', by simp [hfits], by decide⟩
  · rename_i hkind
    rw [hkind] at hfits
    exact ⟨'c', by rw [← hfits, head?_of_directiveName? hblamed], by decide⟩
  · rename_i hkind
    rw [hkind] at hfits
    obtain ⟨c, hmark, hc⟩ := List.any_eq_true.1 hblamed
    have hplain : ∀ d ∈ ['{', '\'', '"'], endsListingLine d = false :=
      List.forall_mem_cons.2 ⟨by decide, List.forall_mem_cons.2 ⟨by decide,
        List.forall_mem_singleton.2 (by decide)⟩⟩
    rw [beq_iff_eq] at hc
    -- a missing brace is added at the end, so the first character stays
    dsimp only at hfits
    split at hfits
    · rename_i hbrace
      rw [Bool.and_eq_true, beq_iff_eq] at hbrace
      exact ⟨'{', hbrace.2, by decide⟩
    · exact ⟨c, by rw [← hfits, hc], hplain c hmark⟩
  · cases hblamed

/-- **A token that a diagnostic can be about starts with a character that ends no line.** -/
theorem lex_blamed (s : List Char) : ∀ t ∈ lex s, t.isBlamed = true → ∃ k c,
    t.span.start = Position.ofOffset s k ∧ s[k]? = some c ∧ endsListingLine c = false := by
  intro t ht hblamed
  obtain ⟨⟨a, b, hspan⟩, hfits⟩ := (lex_reads s).spans t ht
  obtain ⟨c, hc, hplain⟩ := hfits.head?_raw (lex_opens s t ht) hblamed
  refine ⟨a, c, by rw [hspan.span], ?_, hplain⟩
  rw [hspan.raw, String.toList_ofList, List.head?_drop] at hc
  rw [List.getElem?_take] at hc
  split at hc
  · exact hc
  · cases hc

/-! ## Where diagnostics start -/

/-- Where a reader stands, for a property of the places that a diagnostic may start at. -/
def Place.Blames (starts : Position → Prop) : Place → Prop
  | .content => True
  | .tag h => starts h.token.span.start
  | .value h name => starts h.token.span.start ∧
    ((directiveName? name.value).isSome = true → starts name.span.start)

/-- All that a reader has complained about, and all that it may still complain about, starts at such
a place. -/
structure Reader.Blames (starts : Position → Prop) (r : Reader) : Prop where
  place : r.place.Blames starts
  frames : ∀ f ∈ r.frames, starts f.head.token.span.start
  found : ∀ d ∈ r.found, starts d.span.start

/-- What is wrong with a value is said about the value. -/
theorem attrOf_blames {starts : Position → Prop} (name : Token) {value? : Option Token}
    (hvalue : ∀ value ∈ value?, value.isDelimited = true → starts value.span.start) :
    (attrOf name value?).1.span.start = name.span.start ∧
      ∀ d ∈ (attrOf name value?).2, starts d.span.start := by
  rcases value? with _ | value
  · exact ⟨rfl, by simp [attrOf]⟩
  have hvalue := hvalue value rfl
  have hincomplete : starts value.span.start → ∀ problem : Problem, ∀ d ∈
      (if value.incomplete then some (⟨problem, value.span⟩ : Diagnostic) else none),
        starts d.span.start := by
    intro hstart problem d hd
    split at hd
    · cases hd
      exact hstart
    · cases hd
  unfold attrOf
  dsimp only
  split
  · exact ⟨rfl, by simp⟩
  · rename_i cs hbrace
    exact ⟨rfl, hincomplete (hvalue (by simp [Token.isDelimited, hbrace])) _⟩
  · rename_i c cs hbrace hchars
    split
    · rename_i hquote
      have hquote : c = '\'' ∨ c = '"' := by simpa using hquote
      refine ⟨rfl, hincomplete (hvalue ?_) _⟩
      rcases hquote with rfl | rfl <;> simp [Token.isDelimited, hchars]
    · exact ⟨rfl, by simp⟩

namespace Reader
namespace Blames

variable {starts : Position → Prop} {r : Reader} {t : Token} (h : r.Blames starts)
include h

theorem note (problem : Problem) {span : Span} (hspan : starts span.start) :
    (r.note problem span).Blames starts :=
  ⟨h.place, h.frames, List.forall_mem_cons.2 ⟨hspan, h.found⟩⟩

theorem past (t : Token) : (r.past t).Blames starts :=
  ⟨h.place, h.frames, h.found⟩

theorem add (n : Node) : (r.add n).Blames starts := by
  refine ⟨by rw [place_add]; exact h.place, ?_, by rw [found_add]; exact h.found⟩
  have hframes := h.frames
  rw [Reader.add]
  split
  · rename_i f fs hstack
    rw [hstack] at hframes
    exact List.forall_mem_cons.2 (List.forall_mem_cons.1 hframes)
  · exact hframes

theorem closeFrame : r.closeFrame.Blames starts := by
  rw [Reader.closeFrame]
  split
  · rename_i f fs hstack
    have hframes := h.frames
    rw [hstack] at hframes
    have hout : ({ r with frames := fs } : Reader).Blames starts :=
      ⟨h.place, (List.forall_mem_cons.1 hframes).2, h.found⟩
    exact hout.add _
  · exact h

theorem closeTag (ht : starts t.span.start) (frames : List Frame) :
    (closeTag t frames r).Blames starts := by
  induction frames generalizing r with
  | nil => exact (h.note _ ht).past t
  | cons f fs ih =>
    rw [Reader.closeTag]
    split
    · exact (h.past t).closeFrame
    · exact ih (h.note _ ht).closeFrame

theorem closeAll {frames : List Frame}
    (hframes : ∀ f ∈ frames, starts f.head.token.span.start) :
    (closeAll frames r).Blames starts := by
  induction frames generalizing r with
  | nil => exact h
  | cons f fs ih =>
    obtain ⟨hf, hfs⟩ := List.forall_mem_cons.1 hframes
    exact ih (h.note _ hf).closeFrame hfs

theorem content : ({ r with place := .content } : Reader).Blames starts :=
  ⟨trivial, h.frames, h.found⟩

theorem selfClose (head : Head) : (r.selfClose head).Blames starts :=
  h.content.add _

theorem openTag (hhead : starts head.token.span.start) :
    (r.openTag head).Blames starts := by
  rw [Reader.openTag]
  split
  · exact h.content.add _
  · exact ⟨trivial, List.forall_mem_cons.2 ⟨hhead, h.frames⟩, h.found⟩

theorem abandon (hhead : starts head.token.span.start) :
    (r.abandon head).Blames starts :=
  selfClose (r := r.note _ ⟨head.token.span.start, r.last⟩) (h.note _ hhead) head

theorem addAttribute (head : Head) (name : Token) (value? : Option Token)
    (hname : (directiveName? name.value).isSome = true → starts name.span.start)
    (hvalue : ∀ value ∈ value?, value.isDelimited = true → starts value.span.start) :
    (r.addAttribute head name value?).1.Blames starts := by
  obtain ⟨hstart, hproblem⟩ := attrOf_blames name hvalue
  have hdirective := attrOf_directive name value?
  rw [Reader.addAttribute]
  generalize attrOf name value? = made at hstart hproblem hdirective
  refine ⟨h.place, h.frames, List.forall_mem_append.2 ⟨List.forall_mem_append.2 ⟨?_, ?_⟩, h.found⟩⟩
  · intro d hd
    split at hd
    · rename_i hagain
      rw [Bool.and_eq_true, hdirective] at hagain
      rw [List.mem_singleton.1 hd]
      show starts made.1.span.start
      rw [hstart]
      exact hname hagain.1
    · cases hd
  · exact fun d hd => hproblem d (Option.mem_toList.1 hd)

/-! Each token is read where it may be blamed. -/

theorem readContent (ht : t.isBlamed = true → starts t.span.start) :
    (r.readContent t).Blames starts := by
  rw [Token.isBlamed] at ht
  rw [Reader.readContent]
  split
  · exact (h.add _).past t
  · rename_i hkind
    rw [hkind] at ht
    dsimp only
    split
    · exact ((h.note _ (ht rfl)).add _).past t
    · exact (h.add _).past t
  · rename_i hkind
    rw [hkind] at ht
    exact ⟨ht rfl, h.frames, h.found⟩
  · rename_i hkind
    rw [hkind] at ht
    split
    · rename_i hclosing
      rw [Token.isClosingTag, Bool.and_eq_true] at hclosing
      exact h.closeTag (ht hclosing.2) _
    · exact h.past t
  · exact h.past t

theorem readTag (hhead : starts head.token.span.start)
    (ht : t.isBlamed = true → starts t.span.start) : (r.readTag head t).Blames starts := by
  rw [Reader.readTag]
  split
  · rename_i hkind
    rw [Token.isBlamed, hkind] at ht
    exact ⟨⟨hhead, ht⟩, h.frames, h.found⟩
  · exact (h.past t).selfClose head
  · split
    · exact (h.past t).openTag hhead
    · exact (h.abandon hhead).readContent ht

/-- **Reading a token keeps all complaints at such places**, if the token starts at one when it can
be blamed. -/
theorem read (ht : t.isBlamed = true → starts t.span.start) :
    (r.read t).Blames starts := by
  have hplaced := h.place
  rw [Reader.read]
  split
  · exact h.readContent ht
  · rename_i head hplace
    rw [hplace] at hplaced
    exact h.readTag hplaced ht
  · rename_i head name hplace
    rw [hplace] at hplaced
    obtain ⟨hhead, hname⟩ := hplaced
    split
    · rename_i hkind
      rw [Token.isBlamed, beq_iff_eq.1 hkind] at ht
      have hadded := (h.past t).addAttribute head name (some t) hname
        (by rintro _ ⟨⟩; exact ht)
      exact ⟨hhead, hadded.frames, hadded.found⟩
    · exact (h.addAttribute head name none hname (by simp)).readTag hhead ht

theorem endTag : r.endTag.Blames starts := by
  have hplaced := h.place
  rw [Reader.endTag]
  split
  · exact h
  · rename_i head hplace
    rw [hplace] at hplaced
    exact h.abandon hplaced
  · rename_i head name hplace
    rw [hplace] at hplaced
    exact (h.addAttribute head name none hplaced.2 (by simp)).abandon hplaced.1

theorem finish : r.finish.Blames starts :=
  h.endTag.closeAll h.endTag.frames

theorem foldl (ts : List Token)
    (hts : ∀ t ∈ ts, t.isBlamed = true → starts t.span.start) :
    (ts.foldl Reader.read r).Blames starts := by
  induction ts generalizing r with
  | nil => exact h
  | cons t ts ih =>
    obtain ⟨ht, hts⟩ := List.forall_mem_cons.1 hts
    exact ih (h.read ht) hts

end Blames
end Reader

/-- **Every diagnostic starts where a token does that it can be about**, whatever the tokens are:
what holds of the starts of all such tokens holds of its start. -/
theorem start_diagnostics (starts : Position → Prop) {ts : List Token}
    (h : ∀ t ∈ ts, t.isBlamed = true → starts t.span.start) :
    ∀ d ∈ (parseTokens ts).diagnostics, starts d.span.start := by
  have hbegin : (Reader.begin ts).1.Blames starts ∧ (Reader.begin ts).2 ⊆ ts := by
    unfold Reader.begin
    dsimp only
    split
    · split
      · exact ⟨⟨trivial, by simp [Reader.past, Reader.start], by simp [Reader.past, Reader.start]⟩,
          List.subset_cons_self _ _⟩
      · exact ⟨⟨trivial, by simp [Reader.start], by simp [Reader.start]⟩, List.Subset.refl _⟩
    · exact ⟨⟨trivial, by simp [Reader.start], by simp [Reader.start]⟩, List.Subset.refl _⟩
  rw [parseTokens]
  generalize Reader.begin ts = begun at hbegin
  have hread := hbegin.1.foldl (begun.2.takeWhile fun t => t.kind != .eof)
    fun t ht => h t (hbegin.2 (List.takeWhile_subset _ ht))
  exact fun d hd => hread.finish.found d (List.mem_reverse.1 hd)

/-! ## Excerpts -/

/-- The text ends with a numbered line and a row of carets below it, the first of which stands under
the given place of the line. -/
def ShowsAt (text number : String) (line : List Char) (place : Nat) : Prop :=
  ∃ lead margin more, text = lead ++ "\n" ++ number ++ " | " ++ String.ofList line ++ "\n" ++
      margin ++ "^" ++ String.ofList (List.replicate more '^') ∧
    margin.length = (number ++ " | ").length + place ∧ '^' ∉ margin.toList

theorem toList_times (n : Int) (c : Char) :
    (times n (String.singleton c)).toList = List.replicate n.toNat c := by
  rw [times, String.toList_join]
  induction n.toNat with
  | zero => rfl
  | succ m ih =>
    rw [List.replicate_succ, List.flatMap_cons, ih, List.replicate_succ, String.toList_singleton]
    rfl

/-- **An excerpt shows the source line of its span, with the carets under the column.** -/
theorem excerpt_showsAt (label message : String) {span : Span} (source filename : String)
    {place : Nat} (hplace : span.start.column = place + 1) :
    ShowsAt (excerpt label message span source filename) (toString span.start.line)
      (sourceLine source span.start.line) place := by
  have hspaces (n : Int) : (times n " ").toList = List.replicate n.toNat ' ' := toList_times n ' '
  have hcarets : 1 ≤ caretsOf span source := by
    rw [caretsOf]
    split <;> exact le_max_left _ _
  obtain ⟨more, hmore⟩ : ∃ more, (caretsOf span source).toNat = more + 1 :=
    ⟨(caretsOf span source).toNat - 1, by omega⟩
  have hrow : times (caretsOf span source) "^" =
      "^" ++ String.ofList (List.replicate more '^') := by
    rw [← String.toList_inj]
    refine (toList_times _ '^').trans ?_
    rw [hmore, List.replicate_succ]
    simp
  generalize hnumber : toString span.start.line = number
  refine ⟨label ++ ": " ++ message ++ "\n" ++ times (number.length + 1) " " ++ "--> " ++ filename ++
      ":" ++ number ++ ":" ++ toString span.start.column ++ "\n" ++
        times (number.length + 1) " " ++ "|",
    times (number.length + 1) " " ++ "| " ++ times (indentOf span) " ", more, ?_, ?_, ?_⟩
  · have hbar : "|\n".toList = "|".toList ++ "\n".toList := rfl
    unfold excerpt
    dsimp only
    rw [hnumber, hrow]
    simp only [← String.toList_inj, String.toList_append, List.append_assoc, hbar]
  · simp only [← String.length_toList, String.toList_append, hspaces, indentOf, hplace]
    simp
    omega
  · simp [hspaces]

/-- How a diagnostic is shown that starts at the character `c`.  The source is read with its Windows
line ends turned into newlines; in that text, `c` stands at the offset `k`, and in the line `row`,
which `n` lines come before, it stands at `place`. -/
structure Diagnostic.Shown (source filename : String) (d : Diagnostic) (n place k : Nat)
    (row : List Char) (c : Char) : Prop where
  start : d.span.start = ⟨n + 1, place + 1, k⟩
  char : (unifyNewlines source.toList)[k]? = some c
  line : (lines (unifyNewlines source.toList))[n]? = some row
  column : row[place]? = some c
  /-- A line is shown, with a caret at the column. -/
  shows : ShowsAt (d.format (normalize source) filename) (toString (n + 1))
    (sourceLine (normalize source) (n + 1)) place
  /-- It is the line of the character, up to carriage returns at its end, if all lines before it
  stay whole in a listing and it has no line end in it but such carriage returns. -/
  right : (∀ l ∈ (lines (unifyNewlines source.toList)).take n, staysWhole l = true) →
    (dropTrailing '\r' row).any endsListingLine = false →
      sourceLine (normalize source) (n + 1) = dropTrailing '\r' row ∧
        (dropTrailing '\r' row)[place]? = some c

/-- **A diagnostic shows its place.**  Every diagnostic of a document starts at a character, whose
line and column it has.  Its excerpt shows a line of that number, with the first caret under that
column, and where the listing is cut at newlines only, this is the line of the character. -/
theorem format_shows (source filename : String) {d : Diagnostic}
    (hd : d ∈ (parse source).diagnostics) :
    ∃ n place k row c, d.Shown source filename n place k row c := by
  obtain ⟨k, c, hstart, hc, hplain⟩ := start_diagnostics (fun p => ∃ k c,
    p = Position.ofOffset (unifyNewlines source.toList) k ∧
      (unifyNewlines source.toList)[k]? = some c ∧ endsListingLine c = false)
    (lex_blamed (unifyNewlines source.toList)) d hd
  have hends {e : Char} (he : endsListingLine e = true) : c ≠ e := by
    rintro rfl
    exact absurd hplain (by simp [he])
  obtain ⟨front, left, right, back, hlines, htake⟩ := exists_line hc (hends (by decide))
  have hrow : '\n' ∉ left ++ c :: right :=
    notMem_of_mem_lines (s := unifyNewlines source.toList) (by simp [hlines])
  have hfront : ∀ l ∈ front, '\n' ∉ l := fun l hl =>
    notMem_of_mem_lines (s := unifyNewlines source.toList) (by simp [hlines, hl])
  have hleft : '\n' ∉ left := fun hmem => hrow (List.mem_append_left _ hmem)
  have hposition : d.span.start = ⟨front.length + 1, left.length + 1, k⟩ := by
    obtain ⟨hline, hcolumn⟩ := Position.across_joinLines .first rfl hfront hleft
    have hoffset := Position.offset_ofOffset (unifyNewlines source.toList) k
      (List.getElem?_eq_some_iff.1 hc).1.le
    rw [hstart]
    rw [Position.ofOffset, htake] at hoffset ⊢
    generalize Position.first.across (joinLines (front ++ [left])) = p at hline hcolumn hoffset
    obtain ⟨line, column, offset⟩ := p
    simp only [Position.mk.injEq]
    exact ⟨hline.trans (Int.add_comm _ _), hcolumn, hoffset⟩
  have hcolumn : (left ++ c :: right)[left.length]? = some c := by simp
  refine ⟨front.length, left.length, k, left ++ c :: right, c, hposition, hc, by simp [hlines],
    hcolumn, ?_, fun hwhole hplainrow => ?_⟩
  · have hshows := excerpt_showsAt (d.severity.word ++ "[" ++ d.problem.code ++ "]")
      d.problem.message (normalize source) filename
      (show d.span.start.column = left.length + 1 by rw [hposition])
    rw [hposition] at hshows
    exact hshows
  · rw [hlines, List.take_left] at hwhole
    have hsource : lines (normalize source).toList = front ++ (left ++ c :: right) :: back := by
      rw [Text.normalize, String.toList_ofList, hlines]
    exact ⟨sourceLine_of_lines hsource hwhole hplainrow,
      getElem?_dropTrailing hcolumn (hends (by decide))⟩

set_option maxRecDepth 4096 in
/-- A tag that is never closed, behind a line with two carriage returns that stays whole. -/
theorem format_shows_returns :
    ⟨.unclosedTag "b", ⟨⟨2, 2, 4⟩, ⟨2, 4, 6⟩⟩⟩ ∈ (parse "a\r\r\n <b>").diagnostics ∧
      (∀ l ∈ (lines (unifyNewlines "a\r\r\n <b>".toList)).take 1, staysWhole l = true) ∧
      (dropTrailing '\r' " <b>".toList).any endsListingLine = false ∧
      ∃ n place k row c, Diagnostic.Shown "a\r\r\n <b>" "page"
        ⟨.unclosedTag "b", ⟨⟨2, 2, 4⟩, ⟨2, 4, 6⟩⟩⟩ n place k row c := by
  have htokens : tokenize "a\r\r\n <b>" =
      [⟨.text, "a\r\n ", "a\r\n ", ⟨⟨1, 1, 0⟩, ⟨2, 2, 4⟩⟩, false⟩,
        ⟨.tagOpen, "b", "<b", ⟨⟨2, 2, 4⟩, ⟨2, 4, 6⟩⟩, false⟩,
        ⟨.tagClose, ">", ">", ⟨⟨2, 4, 6⟩, ⟨2, 5, 7⟩⟩, false⟩, .eofAt ⟨2, 5, 7⟩] := by cbv
  have hmem : ⟨.unclosedTag "b", ⟨⟨2, 2, 4⟩, ⟨2, 4, 6⟩⟩⟩ ∈ (parse "a\r\r\n <b>").diagnostics := by
    rw [parse, htokens]
    exact List.mem_singleton_self _
  exact ⟨hmem, by decide, by decide, format_shows "a\r\r\n <b>" "page" hmem⟩

set_option maxRecDepth 4096 in
/-- A form feed in front of the newline ends a line of the listing on its own, and the empty rest up
to the newline is shown in place of the line with the tag. -/
theorem format_formFeed :
    (parse "a\x0c\n<b>").diagnostics = [⟨.unclosedTag "b", ⟨⟨2, 1, 3⟩, ⟨2, 3, 5⟩⟩⟩] ∧
      (lines (unifyNewlines "a\x0c\n<b>".toList))[1]? = some "<b>".toList ∧
      Diagnostic.format ⟨.unclosedTag "b", ⟨⟨2, 1, 3⟩, ⟨2, 3, 5⟩⟩⟩ (normalize "a\x0c\n<b>") "page" =
        "error[unclosed-tag]: <b> is never closed\n  --> page:2:1\n  |\n2 | \n  | ^^" := by
  have htokens : tokenize "a\x0c\n<b>" =
      [⟨.text, "a\x0c\n", "a\x0c\n", ⟨⟨1, 1, 0⟩, ⟨2, 1, 3⟩⟩, false⟩,
        ⟨.tagOpen, "b", "<b", ⟨⟨2, 1, 3⟩, ⟨2, 3, 5⟩⟩, false⟩,
        ⟨.tagClose, ">", ">", ⟨⟨2, 3, 5⟩, ⟨2, 4, 6⟩⟩, false⟩, .eofAt ⟨2, 4, 6⟩] := by cbv
  have hshown : sourceLine (normalize "a\x0c\n<b>") 2 = [] := by cbv
  have hnumber : toString (2 : Int) = "2" := rfl
  have hcolumn : toString (1 : Int) = "1" := rfl
  refine ⟨by rw [parse, htokens]; rfl, by cbv, ?_⟩
  unfold Diagnostic.format excerpt
  dsimp only
  rw [hshown, hnumber, hcolumn]
  rfl

end Markup
end Atoll
