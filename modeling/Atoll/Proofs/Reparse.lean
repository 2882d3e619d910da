import Atoll.Proofs.Canonical
import Atoll.Proofs.Digits
import Atoll.Proofs.Entities
import Atoll.Proofs.Grammar
import Atoll.Proofs.Lexer

/-!
# Parsing undoes building

What the builder writes for a canonical tree is read back as that tree, with its attribute values
the way they stand between quotes.

* `lexFrom_text`, `lexFrom_opening`, … — one piece of markup is read as one token, whatever comes
  behind it, as long as that cannot be a part of the piece.
* `lexFrom_attrs`, `Canonical.lexFrom_written` — hence attributes and content are read as tokens
  that the grammar derives them from, by induction on the tree.
* `parse_markup_canonical` — the result.
-/

set_option autoImplicit false

namespace Atoll
namespace Markup

open Text

variable {tail piece value more name : List Char} {found inner ns children : List Node}
  {us ts : List Token} {selfClosing : Bool} {attrs : List Attr} {q : Char} {tag : String}

/-! ## Pieces of markup -/

/-- The token that a piece of markup is read as. -/
def Token.spelled (kind : TokenKind) (value piece : List Char) (p : Position) : Token :=
  ⟨kind, String.ofList value, String.ofList piece, ⟨p, p.across piece⟩, false⟩

section

variable {p : Position} {more : List Char}

theorem Cursor.advance_append (p : Position) (piece more : List Char) :
    (⟨p, piece ++ more⟩ : Cursor).advance piece.length = ⟨p.across piece, more⟩ := by
  simp [Cursor.advance]

theorem Cursor.token_append (p : Position) (piece more : List Char) (kind : TokenKind)
    (value : List Char) :
    (⟨p, piece ++ more⟩ : Cursor).token kind value piece.length false =
      .spelled kind value piece p := by
  simp [Cursor.token, Token.spelled, Cursor.advance]

theorem Cursor.slice_append (p : Position) (piece more : List Char) (kind : TokenKind) :
    (⟨p, piece ++ more⟩ : Cursor).slice kind piece.length = .spelled kind piece piece p := by
  rw [Cursor.slice, Cursor.token_append, List.take_left]

/-- A step that takes a piece of markup. -/
theorem lexFrom_step {mode mode' : Mode} (hne : piece ≠ [])
    (h : mode.step ⟨p, piece ++ more⟩ = ⟨ts, piece.length, mode'⟩) :
    lexFrom mode ⟨p, piece ++ more⟩ = ts ++ lexFrom mode' ⟨p.across piece, more⟩ := by
  have hpos : 0 < piece.length := List.length_pos_iff.2 hne
  rw [lexFrom, dif_neg (by simp [hne]), h]
  show ts ++ lexFrom mode' ((⟨p, piece ++ more⟩ : Cursor).advance (max piece.length 1)) = _
  rw [Nat.max_eq_left hpos, Cursor.advance_append]

/-- A step that takes a piece of markup for one token. -/
theorem lexFrom_token {mode mode' : Mode} {t : Token} (hne : piece ≠ [])
    (h : mode.step ⟨p, piece ++ more⟩ = ⟨[t], piece.length, mode'⟩) :
    lexFrom mode ⟨p, piece ++ more⟩ = t :: lexFrom mode' ⟨p.across piece, more⟩ :=
  lexFrom_step hne h

/-- A text, up to a tag or the end. -/
theorem lexFrom_text {s : List Char} (hs : CanonicalText s) (hmore : ∀ c ∈ more.head?, c = '<') :
    lexFrom .content ⟨p, s ++ more⟩ =
      .spelled .text s s p :: lexFrom .content ⟨p.across s, more⟩ := by
  refine lexFrom_token hs.ne_nil ?_
  have hlength : textLength (s ++ more) = s.length := by
    cases s with
    | nil => exact absurd rfl hs.ne_nil
    | cons c cs =>
      have hwhile : (cs ++ more).takeWhile (fun c => c != '<' && c != '{') = cs := by
        refine takeWhile_append_stop (fun d hd => ?_) fun d hd => ?_
        · simpa using hs.chars d (List.mem_cons_of_mem c hd)
        · simp [hmore d hd]
      simp [textLength, hwhile, Nat.add_comm]
  have htext : contentStep ⟨p, s ++ more⟩ = textStep ⟨p, s ++ more⟩ := by
    cases s with
    | nil => exact absurd rfl hs.ne_nil
    | cons c cs =>
      obtain ⟨htag, hbrace⟩ := hs.chars c (List.mem_cons_self ..)
      simp [contentStep, htag, hbrace]
  rw [Mode.step, htext, textStep]
  simp only [hlength, Cursor.slice_append]

/-- The start of an opening tag. -/
theorem lexFrom_opening (hne : name ≠ []) (hname : ∀ c ∈ name, isTagChar c = true)
    (hmore : ∀ c ∈ more.head?, isTagChar c = false) :
    lexFrom .content ⟨p, '<' :: name ++ more⟩ =
      .spelled .tagOpen name ('<' :: name) p ::
        lexFrom (.tag name) ⟨p.across ('<' :: name), more⟩ := by
  refine lexFrom_token (List.cons_ne_nil _ _) ?_
  have hwhile := takeWhile_append_stop hname hmore
  obtain ⟨c, cs, rfl⟩ := List.exists_cons_of_ne_nil hne
  have hslash : c ≠ '/' := by
    rintro rfl
    exact absurd (hname _ (List.mem_cons_self ..)) (by decide)
  have htoken := Cursor.token_append p ('<' :: c :: cs) more .tagOpen (c :: cs)
  simp only [List.cons_append] at hwhile htoken
  simp [Mode.step, contentStep, hslash, hwhile, ← htoken, Nat.add_comm]

/-- A closing tag. -/
theorem lexFrom_closing (hne : name ≠ []) (hname : ∀ c ∈ name, isTagChar c = true) (p : Position)
    (more : List Char) :
    ∃ t, lexFrom .content ⟨p, '<' :: '/' :: (name ++ '>' :: more)⟩ =
        t :: lexFrom .content ⟨p.across ('<' :: '/' :: (name ++ ['>'])), more⟩ ∧
      t.isClosingTag = true ∧ t.value = String.ofList name ∧ t.incomplete = false := by
  have hwhile : (name ++ '>' :: more).takeWhile isTagChar = name :=
    takeWhile_append_stop hname (by simp; decide)
  have hne' : String.ofList name ≠ ">" := by
    rw [Ne, ← String.toList_inj, String.toList_ofList]
    rintro rfl
    exact absurd (hname '>' (by decide)) (by decide)
  have htag : closingTag? ('<' :: '/' :: (name ++ '>' :: more)) = some (name, name.length + 3) := by
    obtain ⟨c, cs, rfl⟩ := List.exists_cons_of_ne_nil hne
    simp only [List.cons_append] at hwhile
    simp [closingTag?, hwhile, isTagSpace]
    omega
  have htoken := Cursor.token_append p ('<' :: '/' :: (name ++ ['>'])) more .tagClose name
  simp only [List.cons_append, List.append_assoc, List.nil_append] at htoken
  have hstep : Mode.content.step ⟨p, '<' :: '/' :: (name ++ ['>']) ++ more⟩ =
      ⟨[.spelled .tagClose name ('<' :: '/' :: (name ++ ['>'])) p],
        ('<' :: '/' :: (name ++ ['>'])).length, .content⟩ := by
    simp [Mode.step, contentStep, htag, ← htoken]
  refine ⟨_, by simpa using lexFrom_token (List.cons_ne_nil _ _) hstep, ?_, rfl, rfl⟩
  simp [Token.isClosingTag, Token.spelled, hne']

/-- The end of an opening tag. -/
theorem lexFrom_tagEnd (hread : isRawTextElement (String.ofList name) = false) (p : Position)
    (more : List Char) :
    ∃ t, lexFrom (.tag name) ⟨p, '>' :: more⟩ = t :: lexFrom .content ⟨p.across ['>'], more⟩ ∧
      t.endsOpenTag = true ∧ t.incomplete = false := by
  refine ⟨.spelled .tagClose ['>'] ['>'] p, lexFrom_token (List.cons_ne_nil '>' []) ?_, rfl, rfl⟩
  simp [Mode.step, tagStep, isTagSpace, hread, Cursor.advance, Cursor.slice, Cursor.token,
    Token.spelled, Position.across]

/-- The end of an opening tag without content. -/
theorem lexFrom_selfClose (name : List Char) (p : Position) (more : List Char) :
    ∃ t, lexFrom (.tag name) ⟨p, ' ' :: '/' :: '>' :: more⟩ =
        t :: lexFrom .content ⟨p.across [' ', '/', '>'], more⟩ ∧
      t.kind = .tagSelfClose ∧ t.incomplete = false := by
  refine ⟨.spelled .tagSelfClose ['/', '>'] ['/', '>'] (p.across [' ']),
    lexFrom_token (List.cons_ne_nil ' ' ['/', '>']) ?_, rfl, rfl⟩
  simp [Mode.step, tagStep, isTagSpace, Cursor.advance, Cursor.slice, Cursor.token,
    Token.spelled, Position.across]

/-- A character of a name is none that is not. -/
theorem isAttrChar.ne {c d : Char} (hc : isAttrChar c = true) (hd : isAttrChar d = false) : c ≠ d :=
  fun heq => by rw [heq, hd] at hc; cases hc

/-- What may follow an attribute without a value: neither more of its name nor an equals sign. -/
def EndsName (more : List Char) : Prop :=
  (∀ c ∈ more.head?, isAttrChar c = false) ∧
    ∀ c ∈ (more.dropWhile isInlineSpace).head?, c ≠ '='

/-- A step that takes an attribute and the blank in front of it. -/
theorem tagStep_attribute (tag : List Char) {s : List Char} (hne : s ≠ [])
    (hs : ∀ c ∈ s.head?, isAttrChar c = true) :
    tagStep tag ⟨p, ' ' :: s⟩ =
      ⟨(attributeTokens ⟨p.across [' '], s⟩).1, 1 + (attributeTokens ⟨p.across [' '], s⟩).2,
        .tag tag⟩ := by
  obtain ⟨c, cs, rfl⟩ := List.exists_cons_of_ne_nil hne
  have hc := hs c rfl
  have hspace : isTagSpace c = false := by
    simp only [isTagSpace, Bool.or_eq_false_iff, beq_eq_false_iff_ne]
    exact ⟨⟨isAttrChar.ne hc rfl, isAttrChar.ne hc rfl⟩, isAttrChar.ne hc rfl⟩
  have hslash : c ≠ '/' := isAttrChar.ne hc rfl
  have hend : c ≠ '>' := isAttrChar.ne hc rfl
  have hbrace : c ≠ '{' := isAttrChar.ne hc rfl
  have hwhile : ([' '] ++ c :: cs).takeWhile isTagSpace = [' '] :=
    takeWhile_append_stop (by simp [isTagSpace]) (by simpa using hspace)
  rw [List.singleton_append] at hwhile
  simp [tagStep, Cursor.advance, *]

theorem head?_append_of_forall (hne : name ≠ []) (hname : ∀ c ∈ name, isAttrChar c = true)
    (s : List Char) : ∀ c ∈ (name ++ s).head?, isAttrChar c = true := by
  intro c hc
  rw [List.head?_append_of_ne_nil _ hne] at hc
  exact hname c (List.mem_of_mem_head? hc)

/-- An attribute without a value. -/
theorem lexFrom_bare (tag : List Char) (hne : name ≠ []) (hname : ∀ c ∈ name, isAttrChar c = true)
    (hmore : EndsName more) :
    lexFrom (.tag tag) ⟨p, ' ' :: name ++ more⟩ =
      .spelled .attrName name name (p.across [' ']) ::
        lexFrom (.tag tag) ⟨p.across (' ' :: name), more⟩ := by
  refine lexFrom_token (List.cons_ne_nil _ _) ?_
  have hwhile := takeWhile_append_stop hname hmore.1
  have htokens : attributeTokens ⟨p.across [' '], name ++ more⟩ =
      ([.spelled .attrName name name (p.across [' '])], name.length) := by
    rw [attributeTokens]
    simp only [hwhile, Cursor.slice_append, List.drop_left, ← List.drop_drop,
      drop_takeWhile_length]
    split
    · rename_i cs hequals
      exact absurd rfl (hmore.2 '=' (by rw [hequals]; rfl))
    · rfl
  rw [Mode.step, List.cons_append,
    tagStep_attribute tag (by simp [hne]) (head?_append_of_forall hne hname more), htokens]
  simp [Nat.add_comm]

/-- A quoted value. -/
theorem valueToken_quoted (hq : q = '\'' ∨ q = '"') (hvalue : q ∉ value) :
    valueToken ⟨p, q :: value ++ [q] ++ more⟩ =
      (.spelled .attrValue (q :: value ++ [q]) (q :: value ++ [q]) p,
        (q :: value ++ [q]).length) := by
  have hwhile : (value ++ q :: more).takeWhile (· != q) = value :=
    takeWhile_append_stop (fun c hc => bne_iff_ne.2 fun heq => hvalue (heq ▸ hc)) (by simp)
  have hslice := Cursor.slice_append p (q :: value ++ [q]) more .attrValue
  simp only [List.cons_append, List.append_assoc, List.nil_append] at hslice
  rcases hq with rfl | rfl <;> simp [valueToken, hwhile, ← hslice]

/-- An attribute with a value right behind its equals sign. -/
theorem attributeTokens_valued (hname : ∀ c ∈ name, isAttrChar c = true)
    (htail : ∀ c ∈ tail.head?, isTagSpace c = false) :
    attributeTokens ⟨p, name ++ '=' :: tail⟩ =
      ([.spelled .attrName name name p, (valueToken ⟨p.across (name ++ ['=']), tail⟩).1],
        name.length + 1 + (valueToken ⟨p.across (name ++ ['=']), tail⟩).2) := by
  have hwhile : (name ++ '=' :: tail).takeWhile isAttrChar = name :=
    takeWhile_append_stop hname (by simp; decide)
  have hspace : tail.takeWhile isTagSpace = [] :=
    takeWhile_append_stop (List.forall_mem_nil _) htail
  have hadvance := Cursor.advance_append p (name ++ ['=']) tail
  rw [List.append_assoc, List.singleton_append, List.length_append, List.length_singleton]
    at hadvance
  rw [attributeTokens]
  simp [hwhile, Cursor.slice_append, isInlineSpace, hspace, hadvance]

/-- An attribute with a quoted value. -/
theorem lexFrom_quoted (tag : List Char) (hq : q = '\'' ∨ q = '"') (hne : name ≠ [])
    (hname : ∀ c ∈ name, isAttrChar c = true) (hvalue : q ∉ value) (more : List Char) :
    lexFrom (.tag tag) ⟨p, ' ' :: name ++ '=' :: q :: value ++ [q] ++ more⟩ =
      [.spelled .attrName name name (p.across [' ']),
        .spelled .attrValue (q :: value ++ [q]) (q :: value ++ [q])
          ((p.across [' ']).across (name ++ ['=']))] ++
        lexFrom (.tag tag) ⟨p.across (' ' :: name ++ '=' :: q :: value ++ [q]), more⟩ := by
  refine lexFrom_step (List.cons_ne_nil _ _) ?_
  have htail : ∀ c ∈ (q :: value ++ [q] ++ more).head?, isTagSpace c = false := by
    rcases hq with rfl | rfl <;> simp [isTagSpace]
  have htokens := attributeTokens_valued (p := p.across [' ']) hname htail
  rw [valueToken_quoted hq hvalue] at htokens
  have hstep := tagStep_attribute (p := p) tag (by simp)
    (head?_append_of_forall hne hname ('=' :: (q :: value ++ [q] ++ more)))
  rw [htokens] at hstep
  have hlength : (' ' :: name ++ '=' :: q :: value ++ [q]).length =
      1 + (name.length + 1 + (q :: value ++ [q]).length) := by
    simp only [List.length_append, List.length_cons]
    omega
  rw [Mode.step, hlength, ← hstep]
  simp

end

/-! ## Attributes -/

/-- What stands behind the attributes of a tag. -/
def EndsAttrs (more : List Char) : Prop :=
  (∃ rest, more = '>' :: rest) ∨ ∃ rest, more = ' ' :: '/' :: '>' :: rest

theorem EndsAttrs.endsName (h : EndsAttrs more) : EndsName more := by
  rcases h with ⟨rest, rfl⟩ | ⟨rest, rfl⟩
  · exact ⟨by simp; decide, by simp [isInlineSpace]⟩
  · exact ⟨by simp; decide, by simp [isInlineSpace]⟩

/-- What stands behind an attribute: others, and the end of the tag. -/
theorem endsName_written (h : ∀ a ∈ attrs, CanonicalAttr a)
    (hmore : EndsAttrs more) : EndsName (attrs.flatMap Attr.written ++ more) := by
  cases attrs with
  | nil => exact hmore.endsName
  | cons a attrs =>
    have ha := h a (List.mem_cons_self ..)
    obtain ⟨c, cs, hname⟩ := List.exists_cons_of_ne_nil ha.ne_nil
    have hc : isAttrChar c = true := ha.chars c (by rw [hname]; exact List.mem_cons_self ..)
    have hspace : isInlineSpace c = false := by
      simp only [isInlineSpace, Bool.or_eq_false_iff, beq_eq_false_iff_ne]
      exact ⟨isAttrChar.ne hc rfl, isAttrChar.ne hc rfl⟩
    obtain ⟨tail, hwritten⟩ : ∃ tail, a.written = ' ' :: c :: tail := by
      unfold Attr.written
      split
      · exact ⟨_, by rw [hname]; rfl⟩
      · exact ⟨_, by rw [hname]⟩
    rw [List.flatMap_cons, hwritten]
    refine ⟨by simp; decide, ?_⟩
    have hskip : isInlineSpace ' ' = true := rfl
    simpa [List.dropWhile_cons, hskip, hspace] using isAttrChar.ne hc rfl

/-- An escaped value does not hold the quote that stands around it. -/
theorem quote_not_mem_escapeBetween (hq : q = '\'' ∨ q = '"') (s : String) :
    q ∉ (escapeBetween q s).toList := by
  rw [toList_escapeBetween_eq]
  rcases hq with rfl | rfl
  · exact not_mem_escapeOnly (by decide) (by decide) (by decide) _
  · exact not_mem_escapeOnly (by decide) (by decide) (by decide) _

/-- **Attributes are read back**, with their values as they stand between the quotes. -/
theorem lexFrom_attrs (tag : List Char) (h : ∀ a ∈ attrs, CanonicalAttr a) (p : Position)
    (hmore : EndsAttrs more) :
    ∃ ts found, lexFrom (.tag tag) ⟨p, attrs.flatMap Attr.written ++ more⟩ =
        ts ++ lexFrom (.tag tag) ⟨p.across (attrs.flatMap Attr.written), more⟩ ∧
      Attributes ts found ∧ (∀ t ∈ ts, t.incomplete = false) ∧
      found.map Attr.unplaced = (attrs.map Attr.escaped).map Attr.unplaced := by
  induction attrs generalizing p with
  | nil => exact ⟨[], [], rfl, .nil, by simp, rfl⟩
  | cons a attrs ih =>
    rw [List.forall_mem_cons] at h
    obtain ⟨ha, hattrs⟩ := h
    obtain ⟨ts, found, hlex, hfound, hcomplete, hsame⟩ := ih hattrs (p.across a.written)
    rw [List.flatMap_cons, Position.across_append, List.append_assoc]
    rcases ha.value with hflag | ⟨s, hs, -⟩
    · have hwritten : a.written = ' ' :: a.name.toList := by simp [Attr.written, hflag]
      have hread := lexFrom_bare (p := p) tag ha.ne_nil ha.chars (endsName_written hattrs hmore)
      rw [← hwritten, hlex] at hread
      refine ⟨_ :: ts, _ :: found, hread, .bare rfl hfound,
        List.forall_mem_cons.2 ⟨rfl, hcomplete⟩, ?_⟩
      have hescaped : a.escaped = a := by simp [Attr.escaped, hflag]
      rw [List.map_cons, hsame, List.map_cons, List.map_cons, hescaped]
      simp [Attr.unplaced, Token.spelled, hflag, ha.directive, ha.expression]
    · have hwritten : a.written =
          ' ' :: a.name.toList ++ '=' :: '"' :: (escapeAttr s).toList ++ ['"'] := by
        simp [Attr.written, hs]
      have hquote : '"' ∉ (escapeAttr s).toList := quote_not_mem_escapeBetween (.inr rfl) s
      have hread := lexFrom_quoted (p := p) tag (.inr rfl) ha.ne_nil ha.chars hquote
        (attrs.flatMap Attr.written ++ more)
      rw [← hwritten, hlex] at hread
      have hmeans := ValueMeans.quoted (.inr rfl) (escapeAttr s).toList (q := '"')
      refine ⟨_ :: _ :: ts, _ :: found, hread,
        .valued rfl rfl (by simpa [Token.spelled] using hmeans) hfound,
        List.forall_mem_cons.2 ⟨rfl, List.forall_mem_cons.2 ⟨rfl, hcomplete⟩⟩, ?_⟩
      rw [List.map_cons, hsame, List.map_cons, List.map_cons]
      simp [Attr.unplaced, Attr.escaped, Token.spelled, hs, ha.directive, ha.expression]

/-! ## Content -/

/-- What some tokens are read as, in comparison with the nodes that were written. -/
structure ReadBack (ts : List Token) (found ns : List Node) : Prop where
  content : Content ts found
  complete : ∀ t ∈ ts, t.incomplete = false
  merged : mergeTexts found = found
  first : found.head?.any Node.isText = ns.head?.any Node.isText
  same : Node.unplacedAll found = Node.unplacedAll (Node.escapedAll ns)

/-- Nothing is joined with a node unless both are texts. -/
theorem joinText_eq_cons {n : Node}
    (h : n.isText = false ∨ ns.head?.any Node.isText = false) : joinText n ns = n :: ns := by
  cases n with
  | text a s =>
    cases ns with
    | nil => rfl
    | cons m ns =>
      cases m with
      | text b t => simp [Node.isText] at h
      | _ => rfl
  | _ => rfl

/-- A text in front of other nodes. -/
theorem ReadBack.text {t : Token} {value : String} {span : Span} (hkind : t.kind = .text)
    (hvalue : t.value = value) (hcomplete : t.incomplete = false)
    (hnext : ns.head?.any Node.isText = false) (h : ReadBack ts found ns) :
    ReadBack (t :: ts) (.text t.value t.span :: found) (.text value span :: ns) := by
  refine ⟨.text hkind h.content, List.forall_mem_cons.2 ⟨hcomplete, h.complete⟩, ?_, rfl, ?_⟩
  · rw [mergeTexts, List.foldr_cons, ← mergeTexts, h.merged,
      joinText_eq_cons (.inr (h.first.trans hnext))]
  · simp [Node.unplacedAll, Node.escapedAll, Node.unplaced, Node.escaped, h.same, hvalue]

/-- An element that some tokens are read as, in comparison with one that was written. -/
structure ReadBackAs (us : List Token) (n m : Node) : Prop where
  content : ∀ ts found, Content ts found → Content (us ++ ts) (n :: found)
  complete : ∀ t ∈ us, t.incomplete = false
  element : n.isText = false ∧ m.isText = false
  same : n.unplaced = m.escaped.unplaced

/-- Elements are the same when their attributes and children are. -/
theorem ReadBackAs.of_parts (htag : CanonicalTag tag) {found : List Attr} {span span' : Span}
    (hcontent : ∀ ts ns, Content ts ns →
      Content (us ++ ts) (tagNode tag found inner selfClosing span :: ns))
    (hcomplete : ∀ t ∈ us, t.incomplete = false)
    (hattrs : found.map Attr.unplaced = (attrs.map Attr.escaped).map Attr.unplaced)
    (hinner : Node.unplacedAll inner = Node.unplacedAll (Node.escapedAll children)) :
    ReadBackAs us (tagNode tag found inner selfClosing span)
      (.element tag attrs children selfClosing span') := by
  rw [tagNode, htag.element] at hcontent ⊢
  refine ⟨hcontent, hcomplete, ⟨rfl, rfl⟩, ?_⟩
  rw [Node.escaped, Node.unplaced, Node.unplaced, hattrs, hinner]

/-- An element in front of other nodes. -/
theorem ReadBack.element {n m : Node} (hn : ReadBackAs us n m)
    (h : ReadBack ts found ns) : ReadBack (us ++ ts) (n :: found) (m :: ns) := by
  refine ⟨hn.content ts found h.content, List.forall_mem_append.2 ⟨hn.complete, h.complete⟩, ?_,
    by simp [hn.element], ?_⟩
  · rw [mergeTexts, List.foldr_cons, ← mergeTexts, h.merged, joinText_eq_cons (.inl hn.element.1)]
  · simp [Node.unplacedAll, Node.escapedAll, hn.same, h.same]

/-- The tokens of an opening tag before its end, in comparison with the tag that was written. -/
structure OpenTag (tag : String) (attrs : List Attr) (o : Token) (as : List Token)
    (found : List Attr) : Prop where
  kind : o.kind = .tagOpen
  value : o.value = tag
  complete : ∀ t ∈ o :: as, t.incomplete = false
  attributes : Attributes as found
  same : found.map Attr.unplaced = (attrs.map Attr.escaped).map Attr.unplaced

namespace OpenTag

variable {tag : String} {attrs found : List Attr} {o c : Token} {as : List Token}
  (h : OpenTag tag attrs o as found) (htag : CanonicalTag tag)
include h htag

/-- An element that has no content. -/
theorem selfClosed (hc : c.kind = .tagSelfClose) (hcomplete : c.incomplete = false) (span : Span) :
    ∃ n, ReadBackAs (o :: as ++ [c]) n (.element tag attrs [] true span) := by
  have hcontent : ∀ ts ns, Content ts ns → Content (o :: as ++ [c] ++ ts)
      (tagNode tag found [] true ⟨o.span.start, c.span.stop⟩ :: ns) := by
    intro ts ns hrest
    rw [List.append_assoc, List.singleton_append, ← h.value]
    exact .selfClosed h.kind h.attributes hc hrest
  have hall := List.forall_mem_append.2 ⟨h.complete, List.forall_mem_singleton.2 hcomplete⟩
  exact ⟨_, .of_parts htag hcontent hall h.same rfl⟩

/-- A void element. -/
theorem alone (hv : isVoidElement tag = true) (hc : c.endsOpenTag = true)
    (hcomplete : c.incomplete = false) (span : Span) :
    ∃ n, ReadBackAs (o :: as ++ [c]) n (.element tag attrs [] false span) := by
  have halone : standsAlone o.value = true := by rw [h.value, standsAlone, hv, htag.element]; rfl
  have hcontent : ∀ ts ns, Content ts ns → Content (o :: as ++ [c] ++ ts)
      (tagNode tag found [] false ⟨o.span.start, c.span.stop⟩ :: ns) := by
    intro ts ns hrest
    rw [List.append_assoc, List.singleton_append, ← h.value]
    exact .alone h.kind h.attributes hc halone hrest
  have hall := List.forall_mem_append.2 ⟨h.complete, List.forall_mem_singleton.2 hcomplete⟩
  exact ⟨_, .of_parts htag hcontent hall h.same rfl⟩

/-- An element with content, which may be empty. -/
theorem paired (hv : isVoidElement tag = false) (hc : c.endsOpenTag = true)
    (hcomplete : c.incomplete = false) {body : List Token} (hbody : ReadBack body inner children)
    {close : Token} (hclose : close.isClosingTag = true) (hname : close.value = tag)
    (hwhole : close.incomplete = false) (span : Span) :
    ∃ n, ReadBackAs (o :: as ++ c :: (body ++ [close])) n
      (.element tag attrs children false span) := by
  have halone : standsAlone o.value = false := by rw [h.value, standsAlone, hv]; rfl
  have hcontent : ∀ ts ns, Content ts ns → Content (o :: as ++ c :: (body ++ [close]) ++ ts)
      (tagNode tag found inner false ⟨o.span.start, close.span.stop⟩ :: ns) := by
    intro ts ns hrest
    have hpaired := Content.paired h.kind h.attributes hc halone hbody.content hclose
      (hname.trans h.value.symm) hrest
    rw [hbody.merged, h.value] at hpaired
    simpa using hpaired
  have hinner := List.forall_mem_append.2 ⟨hbody.complete, List.forall_mem_singleton.2 hwhole⟩
  have hall := List.forall_mem_append.2 ⟨h.complete, List.forall_mem_cons.2 ⟨hcomplete, hinner⟩⟩
  exact ⟨_, .of_parts htag hcontent hall h.same hbody.same⟩

end OpenTag

/-- An opening tag up to its end. -/
theorem lexFrom_openTag (htag : CanonicalTag tag) (hattrs : ∀ a ∈ attrs, CanonicalAttr a)
    (p : Position) (htail : EndsAttrs tail) :
    ∃ o as found, OpenTag tag attrs o as found ∧
      lexFrom .content ⟨p, '<' :: (tag.toList ++ (attrs.flatMap Attr.written ++ tail))⟩ =
        o :: as ++ lexFrom (.tag tag.toList)
          ⟨p.across ('<' :: (tag.toList ++ attrs.flatMap Attr.written)), tail⟩ := by
  obtain ⟨as, found, hlex, hfound, hcomplete, hsame⟩ :=
    lexFrom_attrs tag.toList hattrs (p.across ('<' :: tag.toList)) htail
  have hstop : ∀ c ∈ (attrs.flatMap Attr.written ++ tail).head?, isTagChar c = false := by
    intro c hc
    have hattr := (endsName_written hattrs htail).1 c hc
    rw [isAttrChar, Bool.or_eq_false_iff, Bool.or_eq_false_iff] at hattr
    exact hattr.1.1
  have hopening := lexFrom_opening (p := p) htag.ne_nil htag.chars hstop
  rw [hlex, ← Position.across_append] at hopening
  exact ⟨_, as, found, ⟨rfl, String.ofList_toList, List.forall_mem_cons.2 ⟨rfl, hcomplete⟩, hfound,
    hsame⟩, hopening⟩

/-- **An element is read back** if its content is. -/
theorem lexFrom_element (htag : CanonicalTag tag) (hattrs : ∀ a ∈ attrs, CanonicalAttr a)
    (hvoid : isVoidElement tag = true → children = [] ∧ selfClosing = false)
    (hclosed : selfClosing = true → children = [])
    (hchildren : ∀ (q : Position) (tail : List Char), (∀ c ∈ tail.head?, c = '<') →
      ∃ ts found, lexFrom .content ⟨q, Node.writtenAll children ++ tail⟩ =
          ts ++ lexFrom .content ⟨q.across (Node.writtenAll children), tail⟩ ∧
        ReadBack ts found children) (span : Span) (p : Position) (tail : List Char) :
    ∃ us n, lexFrom .content
        ⟨p, (Node.element tag attrs children selfClosing span).written ++ tail⟩ =
        us ++ lexFrom .content
          ⟨p.across (Node.element tag attrs children selfClosing span).written, tail⟩ ∧
      ReadBackAs us n (.element tag attrs children selfClosing span) := by
  have hread : isRawTextElement (String.ofList tag.toList) = false := by
    rw [String.ofList_toList]
    exact htag.read
  cases hv : isVoidElement tag with
  | true =>
    obtain ⟨rfl, rfl⟩ := hvoid hv
    obtain ⟨o, as, found, hopen, hlex⟩ := lexFrom_openTag htag hattrs p (.inl ⟨tail, rfl⟩)
    obtain ⟨c, hend, hc, hcomplete⟩ := lexFrom_tagEnd hread
      (p.across ('<' :: (tag.toList ++ attrs.flatMap Attr.written))) tail
    obtain ⟨n, hn⟩ := hopen.alone htag hv hc hcomplete span
    refine ⟨_, n, ?_, hn⟩
    rw [hend] at hlex
    simpa [Node.written, hv, ← Position.across_append] using hlex
  | false =>
    cases selfClosing with
    | true =>
      obtain rfl := hclosed rfl
      obtain ⟨o, as, found, hopen, hlex⟩ := lexFrom_openTag htag hattrs p (.inr ⟨tail, rfl⟩)
      obtain ⟨c, hend, hc, hcomplete⟩ := lexFrom_selfClose tag.toList
        (p.across ('<' :: (tag.toList ++ attrs.flatMap Attr.written))) tail
      obtain ⟨n, hn⟩ := hopen.selfClosed htag hc hcomplete span
      refine ⟨_, n, ?_, hn⟩
      rw [hend] at hlex
      simpa [Node.written, hv, ← Position.across_append] using hlex
    | false =>
      obtain ⟨o, as, found, hopen, hlex⟩ := lexFrom_openTag htag hattrs p (.inl ⟨_, rfl⟩)
      obtain ⟨c, hend, hc, hcomplete⟩ := lexFrom_tagEnd hread
        (p.across ('<' :: (tag.toList ++ attrs.flatMap Attr.written))) _
      obtain ⟨ts, inner, hinner, hbody⟩ := hchildren _ ('<' :: '/' :: (tag.toList ++ '>' :: tail))
        (by simp)
      obtain ⟨t, hclosing, ht, hvalue, hwhole⟩ := lexFrom_closing htag.ne_nil htag.chars _ tail
      rw [String.ofList_toList] at hvalue
      obtain ⟨n, hn⟩ := hopen.paired htag hv hc hcomplete hbody ht hvalue hwhole span
      refine ⟨_, n, ?_, hn⟩
      rw [hend, hinner, hclosing] at hlex
      simpa [Node.written, hv, ← Position.across_append] using hlex

/-- **Canonical nodes are read back**, by induction on how they are built up. -/
theorem Canonical.lexFrom_written (h : Canonical ns) (p : Position) (more : List Char)
    (hmore : ∀ c ∈ more.head?, c = '<') :
    ∃ ts found, lexFrom .content ⟨p, Node.writtenAll ns ++ more⟩ =
        ts ++ lexFrom .content ⟨p.across (Node.writtenAll ns), more⟩ ∧
      ReadBack ts found ns := by
  induction h generalizing p more with
  | nil => exact ⟨[], [], rfl, .nil, by simp, rfl, rfl, rfl⟩
  | @text value span ns hvalue hnext hrest ih =>
    obtain ⟨ts, found, hlex, hback⟩ := ih (p.across value.toList) more hmore
    have hstop : ∀ c ∈ (Node.writtenAll ns ++ more).head?, c = '<' := by
      intro c hc
      cases hall : Node.writtenAll ns with
      | nil =>
        rw [hall] at hc
        exact hmore c hc
      | cons d ds =>
        rw [hall] at hc
        exact hrest.head?_writtenAll hnext c (by rw [hall]; exact hc)
    have hread := lexFrom_text (p := p) hvalue hstop
    rw [hlex] at hread
    rw [Node.writtenAll, Node.written, List.append_assoc, Position.across_append]
    exact ⟨_, _, hread, hback.text rfl String.ofList_toList rfl hnext⟩
  | @element tag attrs children ns selfClosing span htag hattrs hvoid hclosed hchildren hrest
      ihchildren ih =>
    obtain ⟨us, n, hread, hn⟩ := lexFrom_element htag hattrs hvoid hclosed ihchildren span p
      (Node.writtenAll ns ++ more)
    obtain ⟨ts, found, hlex, hback⟩ := ih _ more hmore
    rw [hlex, ← List.append_assoc, ← List.append_assoc, ← Position.across_append] at hread
    exact ⟨us ++ ts, n :: found, by rwa [Node.writtenAll], hback.element hn⟩

/-! ## Documents -/

/-- A second directive is no error. -/
theorem errors_of_harmless {r : ParseResult} (h : Harmless r.diagnostics) : r.errors = [] := by
  rw [ParseResult.errors, List.filter_eq_nil_iff]
  rintro ⟨problem, span⟩ hd
  have hcode := h _ hd
  cases problem with
  | duplicateDirective tag attr => simp [Diagnostic.severity, Problem.severity]
  | _ => simp [Problem.code] at hcode

/-- The tokens of what is written for canonical nodes, unless it begins like a script. -/
theorem Canonical.tokenize_written (h : Canonical ns)
    (hfence : ¬"---".toList <+: Node.writtenAll ns) :
    ∃ ts found p, tokenize (String.ofList (Node.writtenAll ns)) = ts ++ [.eofAt p] ∧
      ReadBack ts found ns := by
  obtain ⟨ts, found, hlex, hback⟩ := h.lexFrom_written Position.first [] (by simp)
  have hscript : frontmatterStep? (Cursor.ofText (Node.writtenAll ns)) = none := by
    rw [frontmatterStep?]
    split
    · rename_i rest hafter
      exact absurd ⟨rest, (after?_eq_some hafter).symm⟩ hfence
    · rfl
  have hend (p : Position) : lexFrom .content ⟨p, []⟩ = [.eofAt p] := by
    rw [lexFrom, dif_pos rfl]
  rw [List.append_nil, hend] at hlex
  refine ⟨ts, found, Position.first.across (Node.writtenAll ns), ?_, hback⟩
  rw [tokenize, String.toList_ofList, h.unbroken.unifyNewlines, lex]
  simp only [hscript]
  exact hlex

/-- **Parsing undoes building.**  The markup of a canonical document that does not begin like a
script is read without error as the document, with the texts of its attributes the way they stand
between the quotes. -/
theorem parse_markup_canonical {f : Fragment} (h : f.isCanonical = true) :
    ∃ html, Build.markup f { Build.Options.default with escape := false } = .ok html ∧
      (¬"---".toList <+: html.toList →
        (parse html).errors = [] ∧ (parse html).tree.unplaced = f.escaped.unplaced) := by
  have hcanonical := canonical_of_allCanonical f.children h
  refine ⟨_, Fragment.markup_of_canonical hcanonical, fun hfence => ?_⟩
  replace hfence : ¬"---".toList <+: Node.writtenAll f.children := by
    rwa [← String.toList_ofList (l := Node.writtenAll f.children)]
  obtain ⟨ts, found, p, htokens, hback⟩ := hcanonical.tokenize_written hfence
  have hcomplete : ∀ t ∈ ts ++ [Token.eofAt p], t.incomplete = false :=
    List.forall_mem_append.2 ⟨hback.complete, List.forall_mem_singleton.2 rfl⟩
  obtain ⟨htree, hharmless⟩ := (Document.plain hback.content rfl).parseTokens hcomplete
  rw [← htokens] at htree hharmless
  refine ⟨errors_of_harmless hharmless, ?_⟩
  rw [parse, htree, Fragment.ofDerived, hback.merged]
  rw [Fragment.unplaced, hback.same]
  rfl

/-- A list with a void element, an empty one, two directives and texts with marks that mean nothing
here. -/
def listing : Fragment :=
  ⟨[.element "ul" [⟨"title", .text "a&b \"c\"", .empty, none, false⟩,
        ⟨"client:load", .flag true, .empty, some "load", false⟩,
        ⟨"client:idle", .flag true, .empty, some "idle", false⟩]
      [.text "one > two\n" .empty, .element "br" [] [] false .empty,
        .element "my-li" [] [] true .empty, .element "li" [] [.text "\x7d" .empty] false .empty]
      false .empty, .text "--- &amp;" .empty], .empty⟩

theorem parse_markup_listing : listing.isCanonical = true ∧
    ∃ html, Build.markup listing { Build.Options.default with escape := false } = .ok html ∧
      ¬"---".toList <+: html.toList ∧ (parse html).errors = [] ∧
      (parse html).tree.unplaced = listing.escaped.unplaced := by
  have hlisting : listing.isCanonical = true := by decide +kernel
  obtain ⟨html, hmarkup, hread⟩ := parse_markup_canonical hlisting
  have hfence : ¬"---".toList <+: html.toList := by
    have hwritten := Fragment.markup_of_canonical (canonical_of_allCanonical _ hlisting)
    cases hwritten.symm.trans hmarkup
    rw [← List.isPrefixOf_iff_prefix]
    decide +kernel
  exact ⟨hlisting, html, hmarkup, hfence, hread hfence⟩

end Markup
end Atoll
