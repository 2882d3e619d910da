import Atoll.Proofs.Grammar
import Atoll.Proofs.Lexer

/-!
# Documents without complaints are the documents of the grammar

`Proofs/Grammar` shows that a document of the grammar is read without complaint.  Here is the
converse, for everything the lexer can hand over: a reader that skips, closes or gives up something
says so, and therefore a reader that never complains has followed a derivation.

* `Lexed` — the order in which the lexer leaves its tokens; `lex_lexed` shows that it does.
* `Reader.found_read`, `Reader.found_finish` — complaints are never taken back.
* `Opened before stack` — the tokens read so far are content in which the elements of some opening
  tags are still open.
* `Reader.Follows` — the reader is where the tokens read so far lead.  `Reader.Follows.text` and the
  lemmas behind it say that each step keeps this or complains, and `Lexed.completes` takes a whole
  run to its end.
* `parse_accepts_grammar` — the result, both ways.
-/

set_option autoImplicit false

namespace Atoll
namespace Markup

open Text

variable {name o t : Token} {us body ts before : List Token} {r : Reader}

/-! ## The order of tokens -/

/-- A value token as the lexer leaves it: what is incomplete has started with a brace or a quote,
and everything else says something. -/
def Token.IsValue (t : Token) : Prop :=
  if t.incomplete then ∃ c cs, t.value.toList = c :: cs ∧ (c = '{' ∨ c = '\'' ∨ c = '"')
  else ∃ v braces, ValueMeans t.value.toList v braces

/-- Whether a token ends an opening tag. -/
def Token.endsTag (t : Token) : Bool :=
  t.kind == .tagSelfClose || t.endsOpenTag

theorem Token.kind_ne_of_endsTag (h : t.endsTag = true) : t.kind ≠ .attrValue := by
  rw [endsTag, Bool.or_eq_true, beq_iff_eq] at h
  rcases h with h | h
  · rw [h]
    decide
  · exact kind_ne_of_endsOpenTag h

/-- The order in which the lexer leaves its tokens, inside an opening tag or between tags.  Only
placeholders and values can be incomplete. -/
inductive Lexed : Bool → List Token → Prop where
  | done (inTag : Bool) : Lexed inTag []
  | text {t : Token} {ts : List Token} (ht : t.kind = .text) (hcomplete : t.incomplete = false)
      (hrest : Lexed false ts) : Lexed false (t :: ts)
  | expression {t : Token} {ts : List Token} (ht : t.kind = .expression)
      (hrest : Lexed false ts) : Lexed false (t :: ts)
  | closing {t : Token} {ts : List Token} (ht : t.isClosingTag = true)
      (hcomplete : t.incomplete = false) (hrest : Lexed false ts) : Lexed false (t :: ts)
  | opening {t : Token} {ts : List Token} (ht : t.kind = .tagOpen)
      (hcomplete : t.incomplete = false) (hrest : Lexed true ts) : Lexed false (t :: ts)
  | bare {name : Token} {ts : List Token} (hname : name.kind = .attrName)
      (hcomplete : name.incomplete = false) (hrest : Lexed true ts) : Lexed true (name :: ts)
  | valued {name value : Token} {ts : List Token} (hname : name.kind = .attrName)
      (hcomplete : name.incomplete = false) (hkind : value.kind = .attrValue)
      (hvalue : value.IsValue) (hrest : Lexed true ts) : Lexed true (name :: value :: ts)
  | ending {t : Token} {ts : List Token} (ht : t.endsTag = true)
      (hcomplete : t.incomplete = false) (hrest : Lexed false ts) : Lexed true (t :: ts)

/-- The text up to a quote that is there, and the quote. -/
theorem take_through_quote {q : Char} {cs : List Char}
    (h : (cs.takeWhile (· != q)).length < cs.length) :
    cs.take ((cs.takeWhile (· != q)).length + 1) = cs.takeWhile (· != q) ++ [q] := by
  induction cs with
  | nil => simp at h
  | cons d cs ih =>
    by_cases hd : d = q
    · subst hd
      simp
    · have hwhile : (d :: cs).takeWhile (· != q) = d :: cs.takeWhile (· != q) :=
        List.takeWhile_cons_of_pos (by simpa using hd)
      rw [hwhile, List.length_cons, List.length_cons] at h
      rw [hwhile, List.length_cons, List.take_succ_cons, ih (by omega), List.cons_append]

theorem valueToken_kind (c : Cursor) : (valueToken c).1.kind = .attrValue := by
  unfold valueToken
  split
  · rfl
  · split
    · simp only
      split <;> rfl
    · rfl
  · rfl

/-- The value of an attribute is left as it should be. -/
theorem valueToken_isValue (c : Cursor) : (valueToken c).1.IsValue := by
  unfold valueToken
  split
  · rename_i cs hrest
    simp only [Token.IsValue, Cursor.token, String.toList_ofList]
    split
    · exact ⟨'{', _, rfl, .inl rfl⟩
    · exact ⟨_, _, .braces _⟩
  · rename_i q cs hbrace hrest
    have hq : q ≠ '{' := by
      rintro rfl
      exact hbrace rfl
    split
    · rename_i hquote
      have hquote' : q = '\'' ∨ q = '"' := by simpa using hquote
      simp only
      split
      · rename_i hclosed
        have htake : c.rest.take ((cs.takeWhile (· != q)).length + 2) =
            q :: cs.takeWhile (· != q) ++ [q] := by
          rw [hrest, List.take_succ_cons, take_through_quote hclosed, List.cons_append]
        simp only [Token.IsValue, Cursor.slice, Cursor.token, htake, String.toList_ofList]
        exact ⟨_, _, .quoted hquote' _⟩
      · simp only [Token.IsValue, Cursor.token, String.toList_ofList, if_true]
        exact ⟨q, _, by rw [hrest, List.take_succ_cons], .inr hquote'⟩
    · rename_i hquote
      have hquote' : q ≠ '\'' ∧ q ≠ '"' := by simpa using hquote
      simp only [Token.IsValue, Cursor.slice, Cursor.token, String.toList_ofList]
      refine ⟨_, _, .plain fun d hd => ?_⟩
      have hmem : d ∈ c.rest.head? := by
        rw [List.head?_take] at hd
        split at hd
        · cases hd
        · exact hd
      rw [hrest] at hmem
      cases hmem
      exact ⟨hq, hquote'⟩
  · simp only [Token.IsValue, Cursor.slice, Cursor.token, String.toList_ofList]
    exact ⟨_, _, .plain (by simp)⟩

/-- The name in a closing tag. -/
theorem closingTag?_name {s name : List Char} {n : Nat} (h : closingTag? s = some (name, n)) :
    String.ofList name ≠ ">" := by
  unfold closingTag? at h
  split at h
  · rename_i cs
    simp only at h
    split at h
    · rename_i d ds hname hdrop
      simp only [Option.some.injEq, Prod.mk.injEq] at h
      obtain ⟨rfl, -⟩ := h
      intro heq
      have hlist : cs.takeWhile isTagChar = ['>'] := by
        rw [← String.toList_inj, String.toList_ofList] at heq
        exact heq
      have hall := List.all_takeWhile (p := isTagChar) (l := cs)
      rw [hlist] at hall
      exact absurd hall (by decide)
    · cases h
  · cases h

/-- The tokens of a step may stand in front of whatever may follow it. -/
def Step.Orderly (inTag : Bool) (step : Step) : Prop :=
  ∀ ts, Lexed step.mode.inTag ts → Lexed inTag (step.tokens ++ ts)

/-- A step between tags leaves a token that stands on its own, or the start of an opening tag. -/
theorem contentStep_orderly (c : Cursor) : (contentStep c).Orderly false := by
  unfold contentStep
  split
  · exact fun ts h => .expression rfl h
  · split
    · rename_i name n htag
      refine fun ts h => .closing ?_ rfl h
      simp [Token.isClosingTag, Cursor.token, closingTag?_name htag]
    · exact fun ts h => .text rfl rfl h
  · simp only
    split
    · exact fun ts h => .opening rfl rfl h
    · split
      · exact fun ts h => .text rfl rfl h
      · exact fun ts h => .text rfl rfl h
  · exact fun ts h => .text rfl rfl h

/-- An attribute: its name and, behind an equals sign, its value. -/
theorem attributeTokens_orderly (c : Cursor) (h : Lexed true ts) :
    Lexed true ((attributeTokens c).1 ++ ts) := by
  unfold attributeTokens
  simp only
  split
  · exact .valued rfl rfl (valueToken_kind _) (valueToken_isValue _) h
  · exact .bare rfl rfl h

/-- A step inside an opening tag leaves nothing, an attribute, or the end of the tag. -/
theorem tagStep_orderly (name : List Char) (c : Cursor) : (tagStep name c).Orderly true := by
  unfold tagStep
  simp only
  split
  · exact fun ts h => h
  · rename_i hrest
    exact fun ts h => .ending rfl rfl h
  · rename_i cs hrest
    intro ts h
    have hend : ((c.advance (c.rest.takeWhile isTagSpace).length).slice .tagClose 1).endsTag =
        true := by
      simp [Token.endsTag, Token.endsOpenTag, Cursor.slice, Cursor.token, hrest]
    refine .ending hend rfl ?_
    generalize (if isRawTextElement (String.ofList name) then rawTextLength name cs else 0) = inner
    by_cases hinner : (inner == 0) = true
    · rw [if_pos hinner]
      exact h
    · rw [if_neg hinner]
      exact .text rfl rfl h
  · exact fun ts h => h
  · split
    · exact fun ts h => attributeTokens_orderly _ h
    · exact fun ts h => h

/-- **A run of the lexer leaves its tokens in order**, with an end mark behind them. -/
theorem lexFrom_lexed (mode : Mode) (c : Cursor) :
    ∃ body p, lexFrom mode c = body ++ [Token.eofAt p] ∧ Lexed mode.inTag body := by
  fun_induction lexFrom mode c with
  | case1 mode c hrest => exact ⟨[], c.position, rfl, .done _⟩
  | case2 mode c hne step =>
    rename_i ih
    obtain ⟨body, p, hbody, hlexed⟩ := ih
    refine ⟨step.tokens ++ body, p, ?_, ?_⟩
    · rw [hbody, List.append_assoc]
    · cases mode with
      | content => exact contentStep_orderly c body hlexed
      | tag name => exact tagStep_orderly name c body hlexed

theorem frontmatterStep?_kind {c : Cursor} {n : Nat}
    (h : frontmatterStep? c = some (t, n)) : t.kind = .frontmatter ∧ t.incomplete = false := by
  unfold frontmatterStep? at h
  split at h
  · obtain ⟨⟨content, fence⟩, -, heq⟩ := Option.map_eq_some_iff.mp h
    cases heq
    exact ⟨rfl, rfl⟩
  · cases h

/-- The tokens of a text: maybe a script, tokens in order, and an end mark. -/
theorem lex_lexed (s : List Char) : ∃ body p, Lexed false body ∧
    (lex s = body ++ [Token.eofAt p] ∨
      ∃ script, script.kind = .frontmatter ∧ script.incomplete = false ∧
        lex s = script :: body ++ [Token.eofAt p]) := by
  unfold lex
  simp only
  split
  · rename_i t n hfront
    obtain ⟨body, p, hbody, hlexed⟩ := lexFrom_lexed .content ((Cursor.ofText s).advance n)
    obtain ⟨hkind, hincomplete⟩ := frontmatterStep?_kind hfront
    exact ⟨body, p, hlexed, .inr ⟨t, hkind, hincomplete, by rw [hbody]; rfl⟩⟩
  · obtain ⟨body, p, hbody, hlexed⟩ := lexFrom_lexed .content (Cursor.ofText s)
    exact ⟨body, p, hlexed, .inl hbody⟩

/-- Neither the end mark nor a script stands among the other tokens. -/
theorem Lexed.kind_mem {inTag : Bool} (h : Lexed inTag ts) :
    ∀ t ∈ ts, t.kind ≠ .eof ∧ t.kind ≠ .frontmatter := by
  induction h with
  | done _ => simp
  | text ht _ _ ih => exact List.forall_mem_cons.2 ⟨by simp [ht], ih⟩
  | expression ht _ ih => exact List.forall_mem_cons.2 ⟨by simp [ht], ih⟩
  | closing ht _ _ ih =>
    exact List.forall_mem_cons.2 ⟨by simp [Token.kind_of_isClosingTag ht], ih⟩
  | opening ht _ _ ih => exact List.forall_mem_cons.2 ⟨by simp [ht], ih⟩
  | bare hname _ _ ih => exact List.forall_mem_cons.2 ⟨by simp [hname], ih⟩
  | valued hname _ hkind _ _ ih =>
    exact List.forall_mem_cons.2 ⟨by simp [hname], List.forall_mem_cons.2 ⟨by simp [hkind], ih⟩⟩
  | ending ht _ _ ih =>
    rw [Token.endsTag, Bool.or_eq_true, beq_iff_eq] at ht
    refine List.forall_mem_cons.2 ⟨?_, ih⟩
    rcases ht with ht | ht
    · simp [ht]
    · simp [Token.kind_of_endsOpenTag ht]

/-! ## Complaints are never taken back -/

namespace Reader

theorem found_closeFrame (r : Reader) : r.closeFrame.found = r.found := by
  unfold closeFrame
  split
  · exact found_add _ _
  · rfl

theorem found_note (r : Reader) (problem : Problem) (span : Span) :
    r.found <:+ (r.note problem span).found :=
  List.suffix_cons _ _

theorem found_closeTag (t : Token) (frames : List Frame) (r : Reader) :
    r.found <:+ (closeTag t frames r).found := by
  induction frames generalizing r with
  | nil => exact List.suffix_cons _ _
  | cons f fs ih =>
    rw [closeTag]
    split
    · rw [found_closeFrame]
      exact List.suffix_rfl
    · refine List.IsSuffix.trans ?_ (ih _)
      rw [found_closeFrame]
      exact found_note r _ _

theorem found_closeAll (frames : List Frame) (r : Reader) :
    r.found <:+ (closeAll frames r).found := by
  induction frames generalizing r with
  | nil => exact List.suffix_rfl
  | cons f fs ih =>
    refine List.IsSuffix.trans ?_ (ih _)
    rw [found_closeFrame]
    exact found_note r _ _

theorem found_selfClose (r : Reader) (h : Head) : (r.selfClose h).found = r.found :=
  found_add _ _

theorem found_openTag (r : Reader) (h : Head) : (r.openTag h).found = r.found := by
  unfold openTag
  split
  · exact found_add _ _
  · rfl

theorem found_abandon (r : Reader) (h : Head) : (r.abandon h).found =
    ⟨.unfinishedTag h.token.value, ⟨h.token.span.start, r.last⟩⟩ :: r.found :=
  found_selfClose _ h

theorem found_addAttribute (r : Reader) (h : Head) (name : Token) (value? : Option Token) :
    r.found <:+ (r.addAttribute h name value?).1.found :=
  ⟨_, rfl⟩

theorem found_readContent (r : Reader) (t : Token) : r.found <:+ (r.readContent t).found := by
  unfold readContent
  split
  · exact ⟨[], (found_add _ _).symm⟩
  · simp only
    split
    · exact (found_note r _ _).trans ⟨[], (found_add _ _).symm⟩
    · exact ⟨[], (found_add _ _).symm⟩
  · exact List.suffix_rfl
  · split
    · exact found_closeTag t r.frames r
    · exact List.suffix_rfl
  · exact List.suffix_rfl

theorem found_readTag (r : Reader) (h : Head) (t : Token) : r.found <:+ (r.readTag h t).found := by
  unfold readTag
  split
  · exact List.suffix_rfl
  · rw [found_selfClose]
    exact List.suffix_rfl
  · split
    · rw [found_openTag]
      exact List.suffix_rfl
    · refine List.IsSuffix.trans ?_ (found_readContent _ t)
      rw [found_abandon]
      exact List.suffix_cons _ _

/-- A step takes no complaint back. -/
theorem found_read (r : Reader) (t : Token) : r.found <:+ (r.read t).found := by
  unfold read
  split
  · exact found_readContent r t
  · exact found_readTag r _ t
  · rename_i h name _
    split
    · have hadded := found_addAttribute (r.past t) h name (some t)
      generalize (r.past t).addAttribute h name (some t) = added at hadded ⊢
      exact hadded
    · have hadded := found_addAttribute r h name none
      generalize r.addAttribute h name none = added at hadded ⊢
      exact hadded.trans (found_readTag added.1 added.2 t)

/-- The end of the document takes no complaint back. -/
theorem found_finish (r : Reader) : r.found <:+ r.finish.found := by
  refine List.IsSuffix.trans ?_ (found_closeAll _ _)
  unfold endTag
  split
  · exact List.suffix_rfl
  · rw [found_abandon]
    exact List.suffix_cons _ _
  · rename_i h name _
    have hadded := found_addAttribute r h name none
    generalize r.addAttribute h name none = added at hadded ⊢
    show r.found <:+ (added.1.abandon added.2).found
    rw [found_abandon]
    exact hadded.trans (List.suffix_cons _ _)

/-- What is left of a run complains about nothing but second directives. -/
def Clean (r : Reader) (ts : List Token) : Prop :=
  Harmless (ts.foldl read r).finish.found

/-- A clean run has been clean up to here. -/
theorem Clean.found (h : r.Clean ts) : Harmless r.found := by
  induction ts generalizing r with
  | nil => exact fun d hd => h d (r.found_finish.subset hd)
  | cons t ts ih => exact fun d hd => ih h d ((r.found_read t).subset hd)

end Reader

/-! ## Content with open elements -/

theorem Content.append {ns ms : List Node} (h : Content ts ns)
    (h' : Content us ms) : Content (ts ++ us) (ns ++ ms) := by
  induction h with
  | nil => exact h'
  | text ht _ ih => exact .text ht ih
  | expression ht _ ih => exact .expression ht ih
  | selfClosed ho hattrs hc _ ih =>
    rw [List.append_assoc, List.cons_append]
    exact .selfClosed ho hattrs hc ih
  | alone ho hattrs hc halone _ ih =>
    rw [List.append_assoc, List.cons_append]
    exact .alone ho hattrs hc halone ih
  | paired ho hattrs hc halone hbody hclose hname _ _ ih =>
    simpa only [List.append_assoc, List.cons_append] using
      Content.paired ho hattrs hc halone hbody hclose hname ih

theorem Attributes.append {as bs : List Token} {attrs attrs' : List Attr} (h : Attributes as attrs)
    (h' : Attributes bs attrs') : Attributes (as ++ bs) (attrs ++ attrs') := by
  induction h with
  | nil => exact h'
  | bare hname _ ih => exact .bare hname ih
  | valued hname hvalue hmeans _ ih => exact .valued hname hvalue hmeans ih

/-- The tokens are content in which the elements of some opening tags, given from the innermost on,
are still open. -/
inductive Opened : List Token → List Token → Prop where
  | outside {ts : List Token} {ns : List Node} (hcontent : Content ts ns) : Opened ts []
  | inside {o c : Token} {ts stack as body : List Token} {attrs : List Attr} {ns : List Node}
      (hbefore : Opened ts stack) (ho : o.kind = .tagOpen) (hattrs : Attributes as attrs)
      (hc : c.endsOpenTag = true) (halone : standsAlone o.value = false)
      (hbody : Content body ns) : Opened (ts ++ (o :: as ++ c :: body)) (o :: stack)

namespace Opened

variable {ts us stack : List Token} {ns : List Node} {o : Token}

/-- Content goes into the innermost open element. -/
theorem append (h : Opened ts stack) (hcontent : Content us ns) : Opened (ts ++ us) stack := by
  cases h with
  | outside hbefore => exact .outside (hbefore.append hcontent)
  | inside hbefore ho hattrs hc halone hbody =>
    rw [List.append_assoc, List.append_assoc, List.cons_append]
    exact .inside hbefore ho hattrs hc halone (hbody.append hcontent)

/-- The closing tag of the innermost open element makes it content of the one around it. -/
theorem close (h : Opened ts (o :: stack)) (ht : t.isClosingTag = true)
    (hname : t.value = o.value) : Opened (ts ++ [t]) stack := by
  cases h with
  | inside hbefore ho hattrs hc halone hbody =>
    rw [List.append_assoc, List.append_assoc, List.cons_append]
    exact hbefore.append (.paired ho hattrs hc halone hbody ht hname .nil)

end Opened

/-- The tokens end inside an opening tag, behind complete attributes. -/
def InTag (before : List Token) (o : Token) (stack : List Token) : Prop :=
  ∃ base as attrs, before = base ++ o :: as ∧ o.kind = .tagOpen ∧ Attributes as attrs ∧
    Opened base stack

/-- Further attributes of the opening tag. -/
theorem InTag.append {stack as : List Token} {attrs : List Attr} (h : InTag before o stack)
    (hattrs : Attributes as attrs) : InTag (before ++ as) o stack := by
  obtain ⟨base, bs, attrs', rfl, ho, hbs, hbase⟩ := h
  exact ⟨base, bs ++ as, attrs' ++ attrs, by simp, ho, hbs.append hattrs, hbase⟩

namespace Reader

/-- The opening tags of the open elements, innermost first. -/
def openTags (r : Reader) : List Token :=
  r.frames.map fun f => f.head.token

/-- The opening tag that a reader is in. -/
def tag? (r : Reader) : Option Token :=
  match r.place with
  | .content => none
  | .tag h => some h.token
  | .value h _ => some h.token

/-- The reader is where the tokens read so far lead: its open elements are those that the tokens
leave open, and it is in an opening tag when they end in one. -/
def Follows (r : Reader) (before : List Token) : Prop :=
  match r.tag? with
  | none => Opened before r.openTags
  | some o => InTag before o r.openTags

theorem openTags_add (r : Reader) (n : Node) : (r.add n).openTags = r.openTags := by
  obtain ⟨last, place, frames, nodes, found⟩ := r
  cases frames <;> rfl

theorem follows_content (h : r.tag? = none) (before : List Token) :
    r.Follows before ↔ Opened before r.openTags := by
  rw [Follows, h]

theorem follows_tag (h : r.tag? = some o) (before : List Token) :
    r.Follows before ↔ InTag before o r.openTags := by
  rw [Follows, h]

/-- A clean run has not noted any other problem. -/
theorem Clean.not_mem (h : r.Clean ts) {d : Diagnostic}
    (hd : d.problem.code ≠ "duplicate-directive") : d ∉ r.found :=
  fun hmem => hd (h.found d hmem)

theorem tag?_eq_none (h : r.tag? = none) : r.place = .content := by
  unfold tag? at h
  split at h
  · assumption
  · cases h
  · cases h

section

variable (h : r.Follows before) (hr : r.tag? = none)
include h hr

/-- A node is content of the innermost open element. -/
theorem Follows.add {s : Reader} {ns : List Node} (hs : s.tag? = none)
    (htags : s.openTags = r.openTags) (hcontent : Content us ns) : s.Follows (before ++ us) := by
  rw [follows_content hr] at h
  rw [follows_content hs, htags]
  exact h.append hcontent

/-- Text goes into the innermost open element. -/
theorem Follows.text (ht : t.kind = .text) :
    (r.read t).tag? = none ∧ (r.read t).Follows (before ++ [t]) := by
  have hplace := tag?_eq_none hr
  have hread : r.read t = (r.add (.text t.value t.span)).past t := by
    simp [read, hplace, readContent, ht]
  have htag : (r.read t).tag? = none := by
    rw [hread]
    simp [tag?, past, place_add, hplace]
  refine ⟨htag, h.add hr htag ?_ (.text ht .nil)⟩
  rw [hread]
  exact openTags_add _ _

/-- So does a placeholder, about which there is a complaint if it is incomplete. -/
theorem Follows.expression (ht : t.kind = .expression) (hclean : (r.read t).Clean ts) :
    (r.read t).tag? = none ∧ (r.read t).Follows (before ++ [t]) ∧ t.incomplete = false := by
  have hplace := tag?_eq_none hr
  have hread : r.read t = ((if t.incomplete then r.note .unclosedExpression t.span else r).add
      (.expression (Text.strip t.value) t.span t.incomplete)).past t := by
    simp [read, hplace, readContent, ht]
  have hcomplete : t.incomplete = false := by
    cases hincomplete : t.incomplete with
    | false => rfl
    | true =>
      have hnot := hclean.not_mem (d := ⟨.unclosedExpression, t.span⟩) (by simp [Problem.code])
      refine absurd ?_ hnot
      rw [hread, hincomplete, if_pos rfl]
      show _ ∈ (Reader.add _ _).found
      rw [found_add]
      exact List.mem_cons_self ..
  rw [hcomplete] at hread
  have htag : (r.read t).tag? = none := by
    rw [hread]
    simp [tag?, past, place_add, hplace]
  refine ⟨htag, h.add hr htag ?_ (.expression ht .nil), hcomplete⟩
  rw [hread]
  exact openTags_add _ _

/-- A closing tag closes the innermost open element, or there is a complaint. -/
theorem Follows.closing (ht : t.isClosingTag = true) (hclean : (r.read t).Clean ts) :
    (r.read t).tag? = none ∧ (r.read t).Follows (before ++ [t]) := by
  have hplace := tag?_eq_none hr
  have hread : r.read t = closeTag t r.frames r := by
    simp [read, hplace, readContent, Token.kind_of_isClosingTag ht, ht]
  cases hframes : r.frames with
  | nil =>
    have hnot := hclean.not_mem (d := ⟨.unmatchedClosingTag t.value, t.span⟩)
      (by simp [Problem.code])
    refine absurd ?_ hnot
    rw [hread, hframes]
    exact List.mem_cons_self ..
  | cons f fs =>
    by_cases hname : t.value = f.head.token.value
    · have hclosed := read_closes ht hplace hframes hname
      have htag : (r.read t).tag? = none := by
        rw [hclosed]
        simp [tag?, past, place_add, hplace]
      refine ⟨htag, ?_⟩
      rw [follows_content hr, openTags, hframes] at h
      rw [follows_content htag, hclosed, openTags_add]
      exact h.close ht hname
    · have hnot := hclean.not_mem (d := ⟨.mismatchedTag f.head.token.value t.value, t.span⟩)
        (by simp [Problem.code])
      refine absurd ?_ hnot
      have hne : (f.head.token.value == t.value) = false := by simpa using Ne.symm hname
      rw [hread, hframes, closeTag, hne]
      refine (found_closeTag t fs _).subset ?_
      rw [found_closeFrame]
      exact List.mem_cons_self ..

/-- The start of an opening tag. -/
theorem Follows.opening (ht : t.kind = .tagOpen) :
    (r.read t).tag? = some t ∧ (r.read t).Follows (before ++ [t]) := by
  have hread : r.read t = { r.past t with place := .tag ⟨t, []⟩ } := by
    simp [read, tag?_eq_none hr, readContent, ht]
  have htag : (r.read t).tag? = some t := by rw [hread]; rfl
  refine ⟨htag, ?_⟩
  rw [follows_content hr] at h
  rw [follows_tag htag, hread]
  exact ⟨before, [], [], rfl, ht, .nil, h⟩

end

/-- Inside an opening tag, a token that is no value is read with the attributes so far. -/
theorem read_of_tag? (hr : r.tag? = some o) (ht : t.kind ≠ .attrValue) :
    ∃ (s : Reader) (head : Head), head.token = o ∧ s.openTags = r.openTags ∧
      r.read t = s.readTag head t := by
  have hkind : (t.kind == .attrValue) = false := by simpa using ht
  unfold tag? at hr
  split at hr
  · cases hr
  · rename_i head hplace
    cases hr
    exact ⟨r, head, rfl, rfl, by simp [read, hplace]⟩
  · rename_i head name hplace
    cases hr
    refine ⟨(r.addAttribute head name none).1, (r.addAttribute head name none).2, rfl, rfl, ?_⟩
    simp [read, hplace, hkind]

/-- An attribute name. -/
theorem read_attrName (hr : r.tag? = some o) (ht : t.kind = .attrName) :
    ∃ head, (r.read t).place = .value head t ∧ head.token = o ∧
      (r.read t).openTags = r.openTags := by
  obtain ⟨s, head, htoken, htags, hread⟩ := read_of_tag? hr (t := t) (by rw [ht]; decide)
  refine ⟨head, ?_, htoken, ?_⟩
  · rw [hread]
    simp [readTag, ht]
  · rw [hread, ← htags]
    simp [readTag, ht, openTags, past]

/-- What is wrong with an incomplete value. -/
theorem attrOf_incomplete (name : Token) {value : Token} (hvalue : value.IsValue)
    (hincomplete : value.incomplete = true) :
    ∃ attr problem, attrOf name (some value) = (attr, some ⟨problem, value.span⟩) ∧
      problem.code ≠ "duplicate-directive" := by
  rw [Token.IsValue, if_pos hincomplete] at hvalue
  obtain ⟨c, cs, htext, rfl | rfl | rfl⟩ := hvalue
  · exact ⟨_, .unclosedBraceValue name.value, by simp [attrOf, htext, hincomplete]; rfl,
      by simp [Problem.code]⟩
  · exact ⟨_, .unclosedQuote name.value, by simp [attrOf, htext, hincomplete]; rfl,
      by simp [Problem.code]⟩
  · exact ⟨_, .unclosedQuote name.value, by simp [attrOf, htext, hincomplete]; rfl,
      by simp [Problem.code]⟩

/-- An attribute value behind its name, about which there is a complaint if it is incomplete. -/
theorem read_attrValue {head : Head} (hr : r.place = .value head name) (hkind : t.kind = .attrValue)
    (ht : t.IsValue) (hclean : (r.read t).Clean ts) :
    (r.read t).tag? = some head.token ∧ (r.read t).openTags = r.openTags ∧
      t.incomplete = false := by
  have hread : r.read t = ((r.past t).addAttribute head name (some t)).1.inTag
      ((r.past t).addAttribute head name (some t)).2 := by
    simp only [read, hr, hkind, beq_self_eq_true, if_true]
    rfl
  refine ⟨by rw [hread]; rfl, by rw [hread]; rfl, ?_⟩
  cases hincomplete : t.incomplete with
  | false => rfl
  | true =>
    obtain ⟨attr, problem, hattr, hcode⟩ := attrOf_incomplete name ht hincomplete
    refine absurd ?_ (hclean.not_mem (d := ⟨problem, t.span⟩) hcode)
    rw [hread]
    simp [inTag, addAttribute, hattr]

/-- An attribute without a value. -/
theorem Follows.bare (h : r.Follows before) (hr : r.tag? = some o) (hname : name.kind = .attrName) :
    (r.read name).tag? = some o ∧ (r.read name).Follows (before ++ [name]) := by
  obtain ⟨head, hplace, rfl, htags⟩ := read_attrName hr hname
  have htag : (r.read name).tag? = some head.token := by rw [tag?, hplace]
  refine ⟨htag, ?_⟩
  rw [follows_tag hr] at h
  rw [follows_tag htag, htags]
  exact h.append (.bare hname .nil)

/-- An attribute with a value, about which there is a complaint if it is incomplete. -/
theorem Follows.valued {value : Token} (h : r.Follows before) (hr : r.tag? = some o)
    (hname : name.kind = .attrName) (hkind : value.kind = .attrValue) (hvalue : value.IsValue)
    (hclean : ((r.read name).read value).Clean ts) :
    ((r.read name).read value).tag? = some o ∧
      ((r.read name).read value).Follows (before ++ [name] ++ [value]) ∧
      value.incomplete = false := by
  obtain ⟨head, hplace, rfl, htags⟩ := read_attrName hr hname
  obtain ⟨htag, htags', hcomplete⟩ := read_attrValue hplace hkind hvalue hclean
  refine ⟨htag, ?_, hcomplete⟩
  rw [Token.IsValue, hcomplete] at hvalue
  obtain ⟨v, braces, hmeans⟩ := hvalue
  rw [follows_tag hr] at h
  rw [follows_tag htag, htags', htags, List.append_assoc]
  exact h.append (.valued hname hkind hmeans .nil)

/-- Behind an element without content, the open elements are the ones before it. -/
theorem follows_closed {s s' : Reader} {n : Node} (htags : s.openTags = r.openTags)
    (hread : s' = { s.past t with place := .content }.add n)
    (h : Opened ts r.openTags) : s'.tag? = none ∧ s'.Follows ts := by
  subst hread
  have htag : ({ s.past t with place := .content }.add n).tag? = none := by
    simp [tag?, place_add]
  refine ⟨htag, ?_⟩
  rw [follows_content htag, openTags_add]
  show Opened ts s.openTags
  rwa [htags]

/-- The end of an opening tag, which opens an element unless the tag has no content. -/
theorem Follows.ending (h : r.Follows before) (hr : r.tag? = some o) (ht : t.endsTag = true) :
    (r.read t).tag? = none ∧ (r.read t).Follows (before ++ [t]) := by
  rw [follows_tag hr] at h
  obtain ⟨base, as, attrs, rfl, ho, hattrs, hbase⟩ := h
  obtain ⟨s, head, rfl, htags, hread⟩ := read_of_tag? hr (Token.kind_ne_of_endsTag ht)
  rw [Token.endsTag, Bool.or_eq_true, beq_iff_eq] at ht
  rw [hread, List.append_assoc, List.cons_append]
  -- Without content the element is a node of its own, and otherwise it is open from here on.
  rcases ht with ht | ht
  · have hclosed : s.readTag head t =
        { s.past t with place := .content }.add (head.close [] true t.span.stop) := by
      simp [readTag, ht, selfClose, past]
    exact follows_closed htags hclosed (hbase.append (.selfClosed ho hattrs ht .nil))
  · cases halone : standsAlone head.token.value with
    | true =>
      have hclosed : s.readTag head t =
          { s.past t with place := .content }.add (head.close [] false t.span.stop) := by
        rw [readTag_endsOpenTag ht, openTag, Bool.and_comm, ← standsAlone, halone, if_pos rfl]
        rfl
      exact follows_closed htags hclosed (hbase.append (.alone ho hattrs ht halone .nil))
    | false =>
      rw [readTag_opens ht s head halone]
      refine ⟨rfl, ?_⟩
      rw [follows_content rfl]
      show Opened _ (head.token :: s.openTags)
      rw [htags]
      exact .inside hbase ho hattrs ht halone .nil

/-- A clean run ends outside of all tags and elements. -/
theorem Follows.finish (h : r.Follows before) (hclean : r.Clean []) : ∃ ns, Content before ns := by
  cases hr : r.tag? with
  | none =>
    rw [follows_content hr] at h
    have hfinish : r.finish = closeAll r.frames r := by
      simp [Reader.finish, endTag, tag?_eq_none hr]
    cases hframes : r.frames with
    | nil =>
      rw [openTags, hframes] at h
      cases h with
      | outside hcontent => exact ⟨_, hcontent⟩
    | cons f fs =>
      have hmem : ⟨.unclosedTag f.head.token.value, f.head.token.span⟩ ∈ r.finish.found := by
        rw [hfinish, hframes]
        refine (found_closeAll fs _).subset ?_
        rw [found_closeFrame]
        exact List.mem_cons_self ..
      exact absurd (hclean _ hmem) (by simp [Problem.code])
  | some o =>
    obtain ⟨s, head, hend⟩ : ∃ (s : Reader) (head : Head), r.endTag = s.abandon head := by
      unfold tag? at hr
      split at hr
      · cases hr
      · rename_i head hplace
        exact ⟨r, head, by simp [endTag, hplace]⟩
      · rename_i head name hplace
        exact ⟨(r.addAttribute head name none).1, (r.addAttribute head name none).2,
          by simp [endTag, hplace]⟩
    have hmem : ⟨.unfinishedTag head.token.value, ⟨head.token.span.start, s.last⟩⟩ ∈
        r.finish.found := by
      refine (found_closeAll _ _).subset ?_
      rw [hend, found_abandon]
      exact List.mem_cons_self ..
    exact absurd (hclean _ hmem) (by simp [Problem.code])

end Reader

/-- The tokens to come complete the ones before to content, and are complete themselves. -/
def Completes (before ts : List Token) : Prop :=
  (∃ ns, Content (before ++ ts) ns) ∧ ∀ t ∈ ts, t.incomplete = false

theorem Completes.cons (h : Completes (before ++ [t]) ts)
    (ht : t.incomplete = false) : Completes before (t :: ts) := by
  obtain ⟨hcontent, hcomplete⟩ := h
  rw [List.append_assoc, List.singleton_append] at hcontent
  exact ⟨hcontent, List.forall_mem_cons.2 ⟨ht, hcomplete⟩⟩

/-- **A clean run has read content**, and nothing in it is incomplete. -/
theorem Lexed.completes {inTag : Bool} (h : Lexed inTag ts) (hr : r.tag?.isSome = inTag)
    (hfollows : r.Follows before) (hclean : r.Clean ts) : Completes before ts := by
  induction h generalizing r before with
  | done _ =>
    refine ⟨?_, by simp⟩
    rw [List.append_nil]
    exact hfollows.finish hclean
  | text ht hcomplete _ ih =>
    obtain ⟨htag, hnext⟩ := hfollows.text (by simpa using hr) ht
    exact (ih (by simp [htag]) hnext hclean).cons hcomplete
  | expression ht _ ih =>
    obtain ⟨htag, hnext, hcomplete⟩ := hfollows.expression (by simpa using hr) ht hclean
    exact (ih (by simp [htag]) hnext hclean).cons hcomplete
  | closing ht hcomplete _ ih =>
    obtain ⟨htag, hnext⟩ := hfollows.closing (by simpa using hr) ht hclean
    exact (ih (by simp [htag]) hnext hclean).cons hcomplete
  | opening ht hcomplete _ ih =>
    obtain ⟨htag, hnext⟩ := hfollows.opening (by simpa using hr) ht
    exact (ih (by simp [htag]) hnext hclean).cons hcomplete
  | bare hname hcomplete _ ih =>
    obtain ⟨o, ho⟩ := Option.isSome_iff_exists.1 hr
    obtain ⟨htag, hnext⟩ := hfollows.bare ho hname
    exact (ih (by simp [htag]) hnext hclean).cons hcomplete
  | valued hname hcomplete hkind hvalue _ ih =>
    obtain ⟨o, ho⟩ := Option.isSome_iff_exists.1 hr
    obtain ⟨htag, hnext, hwhole⟩ := hfollows.valued ho hname hkind hvalue hclean
    exact ((ih (by simp [htag]) hnext hclean).cons hwhole).cons hcomplete
  | ending ht hcomplete _ ih =>
    obtain ⟨o, ho⟩ := Option.isSome_iff_exists.1 hr
    obtain ⟨htag, hnext⟩ := hfollows.ending ho ht
    exact (ih (by simp [htag]) hnext hclean).cons hcomplete

/-! ## The documents that are accepted -/

/-- All tokens of the lexer before its end mark are read. -/
theorem Lexed.takeWhile (h : Lexed false body) (p : Position) :
    (body ++ [Token.eofAt p]).takeWhile (fun t => t.kind != .eof) = body :=
  takeWhile_kind_ne_eof (fun t ht => (h.kind_mem t ht).1) rfl

theorem Lexed.head_ne {p : Position} (h : Lexed false body) :
    ∀ t ∈ (body ++ [Token.eofAt p]).head?, t.kind ≠ .frontmatter := by
  intro t ht
  rcases List.mem_append.1 (List.mem_of_mem_head? ht) with hmem | hmem
  · exact (h.kind_mem t hmem).2
  · rw [List.mem_singleton.1 hmem]
    simp [Token.eofAt]

/-- A clean run from a reader with nothing open. -/
theorem Lexed.content (h : Lexed false body) (hplace : r.place = .content) (hframes : r.frames = [])
    (hclean : r.Clean body) : (∃ ns, Content body ns) ∧ ∀ t ∈ body, t.incomplete = false := by
  have htag : r.tag? = none := by rw [Reader.tag?, hplace]
  have hfollows : r.Follows [] := by
    rw [Reader.follows_content htag, Reader.openTags, hframes]
    exact .outside .nil
  exact h.completes (by rw [htag]; rfl) hfollows hclean

/-- Tokens of the lexer about which there is no complaint are complete and a document. -/
theorem document_of_harmless (s : List Char) (h : Harmless (parseTokens (lex s)).diagnostics) :
    (∀ t ∈ lex s, t.incomplete = false) ∧ ∃ f, Document (lex s) f := by
  obtain ⟨body, p, hlexed, hlex | ⟨script, hscript, hwhole, hlex⟩⟩ := lex_lexed s
  · rw [hlex] at h ⊢
    simp only [Harmless, parseTokens, Reader.begin_of_ne hlexed.head_ne, hlexed.takeWhile,
      List.mem_reverse] at h
    obtain ⟨⟨ns, hcontent⟩, hcomplete⟩ := hlexed.content rfl rfl h
    refine ⟨List.forall_mem_append.2 ⟨hcomplete, by simp [Token.eofAt]⟩, _, .plain hcontent rfl⟩
  · rw [hlex, List.cons_append] at h
    rw [hlex]
    simp only [Harmless, parseTokens, Reader.begin_of_script hscript, hlexed.takeWhile,
      List.mem_reverse] at h
    obtain ⟨⟨ns, hcontent⟩, hcomplete⟩ := hlexed.content rfl rfl h
    refine ⟨?_, _, .withScript hscript hcontent rfl⟩
    exact List.forall_mem_cons.2
      ⟨hwhole, List.forall_mem_append.2 ⟨hcomplete, by simp [Token.eofAt]⟩⟩

/-- **The parser accepts exactly its grammar.**  There is no complaint but about a second directive
just when the tokens are complete and derived by the grammar, and then the tree is the one that the
derivation gives. -/
theorem parse_accepts_grammar (source : String) :
    ((∀ d ∈ (parse source).diagnostics, d.problem.code = "duplicate-directive") ↔
      (∀ t ∈ tokenize source, t.incomplete = false) ∧ ∃ f, Document (tokenize source) f) ∧
    ∀ f, (∀ t ∈ tokenize source, t.incomplete = false) → Document (tokenize source) f →
      (parse source).tree = f := by
  refine ⟨⟨document_of_harmless _, ?_⟩, ?_⟩
  · rintro ⟨hcomplete, f, hdocument⟩
    exact (hdocument.parseTokens hcomplete).2
  · intro f hcomplete hdocument
    exact (hdocument.parseTokens hcomplete).1

theorem parse_accepts_grammar_list :
    ∃ f, Document (tokenize "<ul id='l'><br>one\x7btwo\x7d</ul><Hr/>") f ∧
      (parse "<ul id='l'><br>one\x7btwo\x7d</ul><Hr/>").tree = f := by
  obtain ⟨haccepts, htree⟩ := parse_accepts_grammar "<ul id='l'><br>one\x7btwo\x7d</ul><Hr/>"
  obtain ⟨hcomplete, f, hdocument⟩ := haccepts.1 (by decide +kernel)
  exact ⟨f, hdocument, htree f hcomplete hdocument⟩

end Markup
end Atoll
