import Atoll.Markup.Node.Parser

/-!
# The grammar of documents

`Markup.parseTokens` reads any list of tokens.  This file gives the grammar of the documents that it
takes without complaint, as a relation between tokens and nodes, and shows that reading a document
of that grammar gives its derivation tree.

* `Attributes`, `Content`, `Document` — the grammar.  A derivation carries the nodes it stands for.
* `mergeTexts` — adjacent texts as one, which is all that sets the tree apart from the derivation.
* `Reader.Gains` — the reader gets from one place to another by adding some nodes, and complains
  about nothing but a second directive.
* `Content.gains` — **reading content adds its nodes**, by induction on the derivation.
* `Document.parseTokens` — hence the tree of a document is its derivation tree.
-/

set_option autoImplicit false

namespace Atoll
namespace Markup

variable {ts as : List Token} {r s : Reader} {c t : Token} {ns : List Node} {attrs : List Attr}

/-! ## The grammar -/

/-- What the text of a complete attribute value says, and whether it is marked as an expression: a
brace value stays as it is and is marked, quotes are taken off, and anything else is the value. -/
inductive ValueMeans : List Char → AttrValue → Bool → Prop where
  | braces (code : List Char) :
      ValueMeans ('{' :: code ++ ['}']) (.text (String.ofList ('{' :: code ++ ['}']))) true
  | quoted {q : Char} (hq : q = '\'' ∨ q = '"') (inner : List Char) :
      ValueMeans (q :: inner ++ [q]) (.text (String.ofList inner)) false
  | plain {s : List Char} (hs : ∀ c ∈ s.head?, c ≠ '{' ∧ c ≠ '\'' ∧ c ≠ '"') :
      ValueMeans s (.text (String.ofList s)) false

/-- The attributes of an opening tag: names, each with a value or without one. -/
inductive Attributes : List Token → List Attr → Prop where
  | nil : Attributes [] []
  | bare {name : Token} {ts : List Token} {attrs : List Attr} (hname : name.kind = .attrName)
      (hrest : Attributes ts attrs) :
      Attributes (name :: ts)
        (⟨name.value, .flag true, name.span, directiveName? name.value, false⟩ :: attrs)
  | valued {name value : Token} {ts : List Token} {attrs : List Attr} {v : AttrValue}
      {braces : Bool} (hname : name.kind = .attrName) (hvalue : value.kind = .attrValue)
      (hmeans : ValueMeans value.value.toList v braces) (hrest : Attributes ts attrs) :
      Attributes (name :: value :: ts)
        (⟨name.value, v, ⟨name.span.start, value.span.stop⟩, directiveName? name.value, braces⟩
          :: attrs)

/-- Whether a tag has neither content nor a closing tag: it names a void element and is not
capitalized. -/
def standsAlone (tag : String) : Bool :=
  isVoidElement tag && !isComponentName tag

/-- The node of a tag: a component if its name is capitalized, and else an element. -/
def tagNode (tag : String) (attrs : List Attr) (children : List Node) (selfClosing : Bool)
    (span : Span) : Node :=
  match isComponentName tag with
  | true => .component tag attrs children selfClosing span
  | false => .element tag attrs children selfClosing span

/-- A node in front of a list of nodes; a text goes together with a text behind it. -/
def joinText : Node → List Node → List Node
  | .text a s, .text b t :: rest => .text (a ++ b) ⟨s.start, t.stop⟩ :: rest
  | n, rest => n :: rest

/-- The nodes with adjacent texts made one. -/
def mergeTexts (nodes : List Node) : List Node :=
  nodes.foldr joinText []

/-- Content: texts, placeholders, and tags that are closed by themselves, stand alone, or have
content and a closing tag with their name. -/
inductive Content : List Token → List Node → Prop where
  | nil : Content [] []
  | text {t : Token} {ts : List Token} {ns : List Node} (ht : t.kind = .text)
      (hrest : Content ts ns) : Content (t :: ts) (.text t.value t.span :: ns)
  | expression {t : Token} {ts : List Token} {ns : List Node} (ht : t.kind = .expression)
      (hrest : Content ts ns) :
      Content (t :: ts) (.expression (Text.strip t.value) t.span false :: ns)
  | selfClosed {o c : Token} {as ts : List Token} {attrs : List Attr} {ns : List Node}
      (ho : o.kind = .tagOpen) (hattrs : Attributes as attrs) (hc : c.kind = .tagSelfClose)
      (hrest : Content ts ns) :
      Content (o :: as ++ c :: ts)
        (tagNode o.value attrs [] true ⟨o.span.start, c.span.stop⟩ :: ns)
  | alone {o c : Token} {as ts : List Token} {attrs : List Attr} {ns : List Node}
      (ho : o.kind = .tagOpen) (hattrs : Attributes as attrs) (hc : c.endsOpenTag = true)
      (halone : standsAlone o.value = true) (hrest : Content ts ns) :
      Content (o :: as ++ c :: ts)
        (tagNode o.value attrs [] false ⟨o.span.start, c.span.stop⟩ :: ns)
  | paired {o c close : Token} {as body ts : List Token} {attrs : List Attr}
      {inner ns : List Node} (ho : o.kind = .tagOpen) (hattrs : Attributes as attrs)
      (hc : c.endsOpenTag = true) (halone : standsAlone o.value = false)
      (hbody : Content body inner) (hclose : close.isClosingTag = true)
      (hname : close.value = o.value) (hrest : Content ts ns) :
      Content (o :: as ++ c :: (body ++ close :: ts))
        (tagNode o.value attrs (mergeTexts inner) false ⟨o.span.start, close.span.stop⟩ :: ns)

/-- The fragment of the nodes of a derivation. -/
def Fragment.ofDerived (nodes : List Node) : Fragment :=
  ⟨mergeTexts nodes, spanOf (mergeTexts nodes)⟩

/-- A document: maybe a script, then content, then the end mark. -/
inductive Document : List Token → Fragment → Prop where
  | plain {last : Token} {body : List Token} {nodes : List Node} (hbody : Content body nodes)
      (hlast : last.kind = .eof) : Document (body ++ [last]) (.ofDerived nodes)
  | withScript {script last : Token} {body : List Token} {nodes : List Node}
      (hscript : script.kind = .frontmatter) (hbody : Content body nodes)
      (hlast : last.kind = .eof) :
      Document (script :: body ++ [last])
        (.ofDerived (.frontmatter script.value script.span :: nodes))

/-! ## Adjacent texts -/

/-- Joining is associative: two adjacent texts may be joined before the rest is. -/
theorem joinText_joinText (a b : String) (s t : Span) (rest : List Node) :
    joinText (.text a s) (joinText (.text b t) rest) =
      joinText (.text (a ++ b) ⟨s.start, t.stop⟩) rest := by
  cases rest with
  | nil => rfl
  | cons n rest => cases n <;> simp [joinText, String.append_assoc]

/-- A text is only joined with a text. -/
theorem joinText_of_ne {m n : Node} (h : ∀ a s b t, ¬(m = .text a s ∧ n = .text b t))
    (rest : List Node) : joinText m (joinText n rest) = m :: joinText n rest := by
  cases m with
  | text a s =>
    cases n with
    | text b t => exact absurd ⟨rfl, rfl⟩ (h a s b t)
    | _ => rfl
  | _ => rfl

/-- Nodes added one by one to a list that is kept backwards. -/
def pushAll (nodes : List Node) (done : List Node) : List Node :=
  nodes.foldl (fun done n => pushNode n done) done

theorem reverse_pushAll_cons (nodes : List Node) (n : Node) (done : List Node) :
    (pushAll nodes (n :: done)).reverse = done.reverse ++ joinText n (mergeTexts nodes) := by
  induction nodes generalizing n done with
  | nil =>
    have hjoin : joinText n [] = [n] := by cases n <;> rfl
    simp [pushAll, mergeTexts, hjoin]
  | cons m nodes ih =>
    have hmerge : mergeTexts (m :: nodes) = joinText m (mergeTexts nodes) := rfl
    have hstep : pushAll (m :: nodes) (n :: done) = pushAll nodes (pushNode m (n :: done)) := rfl
    rw [hmerge, hstep]
    by_cases htexts : ∃ a s b t, n = .text a s ∧ m = .text b t
    · obtain ⟨a, s, b, t, rfl, rfl⟩ := htexts
      rw [joinText_joinText]
      exact ih _ done
    · have hpush : pushNode m (n :: done) = m :: n :: done := by
        unfold pushNode
        split
        · rename_i hnodes
          cases hnodes
          exact absurd ⟨_, _, _, _, rfl, rfl⟩ htexts
        · rfl
      rw [hpush, ih, joinText_of_ne (fun a s b t h => htexts ⟨a, s, b, t, h⟩)]
      simp

/-- **Nodes added one by one are the nodes with adjacent texts merged.** -/
theorem reverse_pushAll (nodes : List Node) : (pushAll nodes []).reverse = mergeTexts nodes := by
  cases nodes with
  | nil => rfl
  | cons n nodes =>
    have hstep : pushAll (n :: nodes) [] = pushAll nodes [n] := by
      cases n <;> rfl
    rw [hstep, reverse_pushAll_cons]
    rfl

/-! ## What a reader has built -/

/-- The open elements, innermost first, and the nodes outside of them. -/
abbrev Built := List Frame × List Node

/-- A node added to the innermost open element. -/
def Built.push (b : Built) (n : Node) : Built :=
  match b with
  | (f :: fs, nodes) => (⟨f.head, pushNode n f.children⟩ :: fs, nodes)
  | ([], nodes) => ([], pushNode n nodes)

theorem Built.foldl_push_cons (ns : List Node) (f : Frame) (fs : List Frame) (nodes : List Node) :
    ns.foldl Built.push (f :: fs, nodes) = (⟨f.head, pushAll ns f.children⟩ :: fs, nodes) := by
  induction ns generalizing f with
  | nil => rfl
  | cons n ns ih => exact ih ⟨f.head, pushNode n f.children⟩

theorem Built.foldl_push_nil (ns nodes : List Node) :
    ns.foldl Built.push ([], nodes) = ([], pushAll ns nodes) := by
  induction ns generalizing nodes with
  | nil => rfl
  | cons n ns ih => exact ih (pushNode n nodes)

/-- Nothing but second directives is complained about. -/
def Harmless (found : List Diagnostic) : Prop :=
  ∀ d ∈ found, d.problem.code = "duplicate-directive"

theorem Harmless.append {ds es : List Diagnostic} (hd : Harmless ds) (he : Harmless es) :
    Harmless (ds ++ es) := by
  intro d hmem
  rcases List.mem_append.mp hmem with h | h
  · exact hd d h
  · exact he d h

namespace Reader

/-- What a reader has built so far. -/
def built (r : Reader) : Built :=
  (r.frames, r.nodes)

theorem built_add (r : Reader) (n : Node) : (r.add n).built = r.built.push n := by
  obtain ⟨last, place, frames, nodes, found⟩ := r
  cases frames <;> rfl

theorem found_add (r : Reader) (n : Node) : (r.add n).found = r.found := by
  obtain ⟨last, place, frames, nodes, found⟩ := r
  cases frames <;> rfl

theorem place_add (r : Reader) (n : Node) : (r.add n).place = r.place := by
  obtain ⟨last, place, frames, nodes, found⟩ := r
  cases frames <;> rfl

/-- The second reader has built what the first one had, and has complained about nothing but second
directives since. -/
structure Keeps (r s : Reader) : Prop where
  /-- No node is added. -/
  built : s.built = r.built
  /-- Nothing else is complained about. -/
  found : ∃ ds, s.found = ds ++ r.found ∧ Harmless ds

theorem Keeps.refl (r : Reader) : r.Keeps r :=
  ⟨rfl, [], rfl, by simp [Harmless]⟩

theorem Keeps.trans {t : Reader} (hrs : r.Keeps s) (hst : s.Keeps t) : r.Keeps t := by
  obtain ⟨ds, hds, hharmless⟩ := hrs.found
  obtain ⟨es, hes, hharmless'⟩ := hst.found
  exact ⟨hst.built.trans hrs.built, es ++ ds, by rw [hes, hds, List.append_assoc],
    hharmless'.append hharmless⟩

/-- The second reader stands between tags and has added some nodes to what the first one had built,
and has complained about nothing but second directives since. -/
structure Gains (r : Reader) (ns : List Node) (s : Reader) : Prop where
  /-- It stands between tags. -/
  place : s.place = .content
  /-- The nodes are added to what was built before. -/
  built : s.built = ns.foldl Built.push r.built
  /-- Nothing else is complained about. -/
  found : ∃ ds, s.found = ds ++ r.found ∧ Harmless ds

theorem Gains.refl (h : r.place = .content) : r.Gains [] r :=
  ⟨h, rfl, [], rfl, by simp [Harmless]⟩

theorem Gains.trans {t : Reader} {ms : List Node} (hrs : r.Gains ns s)
    (hst : s.Gains ms t) : r.Gains (ns ++ ms) t := by
  obtain ⟨ds, hds, hharmless⟩ := hrs.found
  obtain ⟨es, hes, hharmless'⟩ := hst.found
  refine ⟨hst.place, ?_, es ++ ds, ?_, hharmless'.append hharmless⟩
  · rw [hst.built, hrs.built, List.foldl_append]
  · rw [hes, hds, List.append_assoc]

theorem Keeps.add (h : r.Keeps s) (hplace : s.place = .content) (n : Node) :
    r.Gains [n] (s.add n) := by
  obtain ⟨ds, hds, hharmless⟩ := h.found
  refine ⟨?_, ?_, ds, ?_, hharmless⟩
  · rw [place_add, hplace]
  · rw [built_add, h.built]
    rfl
  · rw [found_add, hds]

/-! ## Reading attributes -/

/-- The reader among the attributes of an opening tag. -/
def inTag (r : Reader) (h : Head) : Reader :=
  { r with place := .tag h }

/-- The reader behind an attribute name. -/
def behindName (r : Reader) (h : Head) (name : Token) : Reader :=
  { r with place := .value h name }

theorem keeps_past (r : Reader) (t : Token) : r.Keeps (r.past t) :=
  ⟨rfl, [], rfl, by simp [Harmless]⟩

/-- Where a reader stood before does not matter for a token of an opening tag. -/
theorem readTag_inTag (r : Reader) (h h' : Head) (t : Token) :
    (r.inTag h').readTag h t = r.readTag h t := by
  unfold readTag
  split
  · rfl
  · rfl
  · split <;> rfl

/-- A complete value is read for what it says. -/
theorem attrOf_valued (name : Token) {value : Token} {v : AttrValue} {braces : Bool}
    (hmeans : ValueMeans value.value.toList v braces) (hcomplete : value.incomplete = false) :
    attrOf name (some value) =
      (⟨name.value, v, ⟨name.span.start, value.span.stop⟩, directiveName? name.value, braces⟩,
        none) := by
  generalize htext : value.value.toList = text at hmeans
  cases hmeans with
  | braces code => simp [attrOf, htext, hcomplete]
  | quoted hq inner => rcases hq with rfl | rfl <;> simp [attrOf, htext, hcomplete]
  | plain hs =>
    cases text with
    | nil => simp [attrOf, htext]
    | cons c cs =>
      obtain ⟨hbrace, hsingle, hdouble⟩ := hs c rfl
      simp [attrOf, htext, hsingle, hdouble]

/-- An attribute with nothing wrong in its value goes behind those before it. -/
theorem addAttribute_keeps {name : Token} {value? : Option Token} {attr : Attr}
    (r : Reader) (h : Head) (hattr : attrOf name value? = (attr, none)) :
    r.Keeps (r.addAttribute h name value?).1 ∧
      (r.addAttribute h name value?).2 = ⟨h.token, h.attrs ++ [attr]⟩ := by
  rw [addAttribute, hattr]
  refine ⟨⟨rfl, _, by simp; rfl, ?_⟩, rfl⟩
  intro d hd
  split at hd
  · rw [List.mem_singleton.mp hd]
    rfl
  · cases hd

theorem read_name {name : Token} (hname : name.kind = .attrName) (r : Reader) (h : Head) :
    (r.inTag h).read name = (r.past name).behindName h name := by
  simp [read, inTag, readTag, hname, past, behindName]

/-- A name that no value follows is an attribute of its own. -/
theorem read_behindName_of_ne (ht : t.kind ≠ .attrValue) (r : Reader) (h : Head)
    (name : Token) : ∃ s, r.Keeps s ∧ (r.behindName h name).read t =
      (s.inTag ⟨h.token, h.attrs ++
        [⟨name.value, .flag true, name.span, directiveName? name.value, false⟩]⟩).read t := by
  obtain ⟨hkeeps, hhead⟩ := addAttribute_keeps (r.behindName h name) h
    (show attrOf name none = _ from rfl)
  refine ⟨_, ⟨hkeeps.built, hkeeps.found⟩, ?_⟩
  have hkind : (t.kind == .attrValue) = false := by simpa using ht
  rw [← hhead]
  simp only [read, behindName, hkind, Bool.false_eq_true, if_false]
  exact (readTag_inTag _ _ _ t).symm

/-- A value makes an attribute with the name in front of it. -/
theorem read_behindName {value : Token} {v : AttrValue} {braces : Bool}
    (hvalue : value.kind = .attrValue) (hmeans : ValueMeans value.value.toList v braces)
    (hcomplete : value.incomplete = false) (r : Reader) (h : Head) (name : Token) :
    ∃ s, r.Keeps s ∧ (r.behindName h name).read value =
      s.inTag ⟨h.token, h.attrs ++ [⟨name.value, v, ⟨name.span.start, value.span.stop⟩,
        directiveName? name.value, braces⟩]⟩ := by
  obtain ⟨hkeeps, hhead⟩ := addAttribute_keeps ((r.behindName h name).past value) h
    (attrOf_valued name hmeans hcomplete)
  refine ⟨_, ⟨hkeeps.built, hkeeps.found⟩, ?_⟩
  rw [← hhead]
  simp only [read, behindName, hvalue, beq_self_eq_true, if_true]
  rfl

end Reader

theorem Attributes.head_kind (h : Attributes as attrs) {u : Token} {rest : List Token}
    (ht : t.kind ≠ .attrValue) (hu : as ++ [t] = u :: rest) : u.kind ≠ .attrValue := by
  cases h with
  | nil =>
    cases hu
    exact ht
  | bare hname _ =>
    cases hu
    rw [hname]
    decide
  | valued hname _ _ _ =>
    cases hu
    rw [hname]
    decide

/-- **Reading attributes** collects them for the token behind them. -/
theorem Attributes.foldl_read (h : Attributes as attrs) (hcomplete : ∀ t ∈ as, t.incomplete = false)
    (ht : t.kind ≠ .attrValue) (r : Reader) (head : Head) :
    ∃ s, r.Keeps s ∧ (as ++ [t]).foldl Reader.read (r.inTag head) =
      s.readTag ⟨head.token, head.attrs ++ attrs⟩ t := by
  induction h generalizing r head with
  | nil =>
    rw [List.append_nil]
    exact ⟨r, .refl r, r.readTag_inTag head head t⟩
  | @bare name ts attrs hname hrest ih =>
    obtain ⟨u, rest, hu⟩ := List.exists_cons_of_ne_nil (List.concat_ne_nil t ts)
    obtain ⟨s, hs, hread⟩ := Reader.read_behindName_of_ne (hrest.head_kind ht hu) (r.past name)
      head name
    obtain ⟨s', hs', hrun⟩ := ih (fun t ht => hcomplete t (List.mem_cons_of_mem _ ht)) s
      ⟨head.token, head.attrs ++ [_]⟩
    refine ⟨s', (r.keeps_past name).trans (hs.trans hs'), ?_⟩
    rw [List.append_assoc] at hrun
    rw [List.cons_append, List.foldl_cons, Reader.read_name hname, hu, List.foldl_cons, hread,
      ← List.foldl_cons, ← hu]
    exact hrun
  | @valued name value ts attrs v braces hname hvalue hmeans hrest ih =>
    obtain ⟨s, hs, hread⟩ := Reader.read_behindName hvalue hmeans (hcomplete value (by simp))
      (r.past name) head name
    obtain ⟨s', hs', hrun⟩ := ih
      (fun t ht => hcomplete t (List.mem_cons_of_mem _ (List.mem_cons_of_mem _ ht))) s
      ⟨head.token, head.attrs ++ [_]⟩
    refine ⟨s', (r.keeps_past name).trans (hs.trans hs'), ?_⟩
    rw [List.append_assoc] at hrun
    rw [List.cons_append, List.cons_append, List.foldl_cons, List.foldl_cons,
      Reader.read_name hname, hread]
    exact hrun

/-! ## Reading tags and content -/

theorem Token.kind_of_endsOpenTag (h : t.endsOpenTag = true) : t.kind = .tagClose := by
  simp only [Token.endsOpenTag, Bool.and_eq_true, beq_iff_eq] at h
  exact h.1

theorem Token.kind_of_isClosingTag (h : t.isClosingTag = true) : t.kind = .tagClose := by
  simp only [Token.isClosingTag, Bool.and_eq_true, beq_iff_eq] at h
  exact h.1

theorem Token.kind_ne_of_endsOpenTag (h : t.endsOpenTag = true) : t.kind ≠ .attrValue := by
  rw [t.kind_of_endsOpenTag h]
  decide

theorem Head.close_eq (h : Head) (children : List Node) (selfClosing : Bool) (stop : Position) :
    h.close children selfClosing stop =
      tagNode h.token.value h.attrs children selfClosing ⟨h.token.span.start, stop⟩ := by
  rw [Head.close, tagNode]
  cases isComponentName h.token.value <;> rfl

/-- The token that ends an opening tag finds the attributes of the tag collected. -/
theorem Attributes.foldl_read_tag {o : Token} (h : Attributes as attrs) (ho : o.kind = .tagOpen)
    (hcomplete : ∀ t ∈ as, t.incomplete = false) (hc : c.kind ≠ .attrValue)
    (hr : r.place = .content) :
    ∃ s, r.Keeps s ∧ (o :: as ++ [c]).foldl Reader.read r = s.readTag ⟨o, attrs⟩ c := by
  obtain ⟨s, hs, hread⟩ := h.foldl_read hcomplete hc (r.past o) ⟨o, []⟩
  refine ⟨s, (r.keeps_past o).trans hs, ?_⟩
  have hopen : r.read o = (r.past o).inTag ⟨o, []⟩ := by
    simp [Reader.read, hr, Reader.readContent, ho, Reader.inTag]
  rw [List.cons_append, List.foldl_cons, hopen]
  exact hread

namespace Reader

theorem readTag_selfClosed (hc : c.kind = .tagSelfClose) (h : r.Keeps s) (head : Head) :
    r.Gains [tagNode head.token.value head.attrs [] true ⟨head.token.span.start, c.span.stop⟩]
      (s.readTag head c) := by
  have hread : s.readTag head c =
      { s.past c with place := .content }.add (head.close [] true c.span.stop) := by
    simp [readTag, hc, selfClose, past]
  have hkeeps : r.Keeps { s.past c with place := .content } := ⟨h.built, h.found⟩
  rw [hread, Head.close_eq]
  exact hkeeps.add rfl _

theorem readTag_endsOpenTag (hc : c.endsOpenTag = true) (r : Reader) (head : Head) :
    r.readTag head c = (r.past c).openTag head := by
  simp [readTag, Token.kind_of_endsOpenTag hc, hc]

theorem readTag_alone (hc : c.endsOpenTag = true) (h : r.Keeps s) (head : Head)
    (halone : standsAlone head.token.value = true) :
    r.Gains [tagNode head.token.value head.attrs [] false ⟨head.token.span.start, c.span.stop⟩]
      (s.readTag head c) := by
  have hread : s.readTag head c =
      { s.past c with place := .content }.add (head.close [] false c.span.stop) := by
    rw [readTag_endsOpenTag hc, openTag, Bool.and_comm, ← standsAlone, halone, if_pos rfl]
    rfl
  have hkeeps : r.Keeps { s.past c with place := .content } := ⟨h.built, h.found⟩
  rw [hread, Head.close_eq]
  exact hkeeps.add rfl _

/-- A tag that does not stand alone is open behind its `>`. -/
theorem readTag_opens (hc : c.endsOpenTag = true) (r : Reader) (head : Head)
    (halone : standsAlone head.token.value = false) :
    r.readTag head c =
      { r.past c with place := .content, frames := ⟨head, []⟩ :: r.frames } := by
  rw [readTag_endsOpenTag hc, openTag, Bool.and_comm, ← standsAlone, halone]
  rfl

/-- The closing tag of the innermost open element closes it. -/
theorem read_closes (ht : t.isClosingTag = true) (hplace : r.place = .content) {f : Frame}
    {fs : List Frame} (hframes : r.frames = f :: fs) (hname : t.value = f.head.token.value) :
    r.read t = { r.past t with frames := fs }.add
      (tagNode f.head.token.value f.head.attrs f.children.reverse false
        ⟨f.head.token.span.start, t.span.stop⟩) := by
  simp only [read, hplace, readContent, Token.kind_of_isClosingTag ht, ht, if_true, hframes,
    closeTag, hname, beq_self_eq_true]
  simp only [closeFrame, past, hframes, Head.close_eq]

/-- An element that was opened, has got its children and is closed is added as a whole. -/
theorem Gains.close (head : Head) {r s t : Reader} {c close : Token} {inner : List Node}
    (hs : r.Keeps s) (hc : c.endsOpenTag = true) (halone : standsAlone head.token.value = false)
    (hbody : (s.readTag head c).Gains inner t) (hclose : close.isClosingTag = true)
    (hname : close.value = head.token.value) :
    r.Gains [tagNode head.token.value head.attrs (mergeTexts inner) false
      ⟨head.token.span.start, close.span.stop⟩] (t.read close) := by
  rw [readTag_opens hc s head halone] at hbody
  have hbuilt : t.built = (⟨head, pushAll inner []⟩ :: s.frames, s.nodes) :=
    hbody.built.trans (Built.foldl_push_cons inner ⟨head, []⟩ s.frames s.nodes)
  have hframes : t.frames = ⟨head, pushAll inner []⟩ :: s.frames := congrArg Prod.fst hbuilt
  have hnodes : t.nodes = s.nodes := congrArg Prod.snd hbuilt
  have hkeeps : r.Keeps { t.past close with frames := s.frames } := by
    refine hs.trans ⟨?_, hbody.found⟩
    show (s.frames, t.nodes) = (s.frames, s.nodes)
    rw [hnodes]
  rw [read_closes hclose hbody.place hframes hname, reverse_pushAll]
  exact hkeeps.add hbody.place _

end Reader

/-- **Reading content adds its nodes** to what was built before. -/
theorem Content.gains (h : Content ts ns) (hcomplete : ∀ t ∈ ts, t.incomplete = false)
    (hr : r.place = .content) : r.Gains ns (ts.foldl Reader.read r) := by
  induction h generalizing r with
  | nil => exact .refl hr
  | @text t ts ns ht _ ih =>
    have hread : r.read t = (r.add (.text t.value t.span)).past t := by
      simp [Reader.read, hr, Reader.readContent, ht]
    have hgains : r.Gains [.text t.value t.span] (r.read t) := by
      rw [hread]
      have h := (Reader.Keeps.refl r).add hr (.text t.value t.span)
      exact ⟨h.place, h.built, h.found⟩
    exact hgains.trans (ih (fun u hu => hcomplete u (List.mem_cons_of_mem _ hu)) hgains.place)
  | @expression t ts ns ht _ ih =>
    have hread : r.read t = (r.add (.expression (Text.strip t.value) t.span false)).past t := by
      simp [Reader.read, hr, Reader.readContent, ht, hcomplete t (List.mem_cons_self ..)]
    have hgains : r.Gains [.expression (Text.strip t.value) t.span false] (r.read t) := by
      rw [hread]
      have h := (Reader.Keeps.refl r).add hr (.expression (Text.strip t.value) t.span false)
      exact ⟨h.place, h.built, h.found⟩
    exact hgains.trans (ih (fun u hu => hcomplete u (List.mem_cons_of_mem _ hu)) hgains.place)
  | @selfClosed o c as ts attrs ns ho hattrs hc _ ih =>
    obtain ⟨s, hs, hread⟩ := hattrs.foldl_read_tag ho
      (fun t ht => hcomplete t (by simp [ht])) (by rw [hc]; decide : c.kind ≠ .attrValue) hr
    have hgains := Reader.readTag_selfClosed hc hs ⟨o, attrs⟩
    rw [← hread] at hgains
    rw [List.append_cons, List.foldl_append]
    exact hgains.trans (ih (fun t ht => hcomplete t (by simp [ht])) hgains.place)
  | @alone o c as ts attrs ns ho hattrs hc halone _ ih =>
    obtain ⟨s, hs, hread⟩ := hattrs.foldl_read_tag ho (fun t ht => hcomplete t (by simp [ht]))
      (Token.kind_ne_of_endsOpenTag hc) hr
    have hgains := Reader.readTag_alone hc hs ⟨o, attrs⟩ halone
    rw [← hread] at hgains
    rw [List.append_cons, List.foldl_append]
    exact hgains.trans (ih (fun t ht => hcomplete t (by simp [ht])) hgains.place)
  | @paired o c close as body ts attrs inner ns ho hattrs hc halone _ hclose hname _ ihbody ih =>
    obtain ⟨s, hs, hread⟩ := hattrs.foldl_read_tag ho (fun t ht => hcomplete t (by simp [ht]))
      (Token.kind_ne_of_endsOpenTag hc) hr
    have hopened : (s.readTag ⟨o, attrs⟩ c).place = .content := by
      rw [Reader.readTag_opens hc s ⟨o, attrs⟩ halone]
    have hbody := ihbody (fun t ht => hcomplete t (by simp [ht])) hopened
    have hgains := Reader.Gains.close ⟨o, attrs⟩ hs hc halone hbody hclose hname
    rw [List.append_cons, List.foldl_append, hread, List.foldl_append, List.foldl_cons]
    exact hgains.trans (ih (fun t ht => hcomplete t (by simp [ht])) hgains.place)

/-! ## Whole documents -/

theorem Attributes.kind_mem (h : Attributes as attrs) :
    ∀ t ∈ as, t.kind ≠ .eof ∧ t.kind ≠ .frontmatter := by
  induction h with
  | nil => simp
  | bare hname _ ih => exact List.forall_mem_cons.mpr ⟨by simp [hname], ih⟩
  | valued hname hvalue _ _ ih =>
    exact List.forall_mem_cons.mpr ⟨by simp [hname],
      List.forall_mem_cons.mpr ⟨by simp [hvalue], ih⟩⟩

/-- There is neither an end mark nor a script in content. -/
theorem Content.kind_mem (h : Content ts ns) : ∀ t ∈ ts, t.kind ≠ .eof ∧ t.kind ≠ .frontmatter := by
  induction h with
  | nil => simp
  | text ht _ ih => exact List.forall_mem_cons.mpr ⟨by simp [ht], ih⟩
  | expression ht _ ih => exact List.forall_mem_cons.mpr ⟨by simp [ht], ih⟩
  | selfClosed ho hattrs hc _ ih =>
    simp only [List.forall_mem_append, List.forall_mem_cons]
    exact ⟨⟨by simp [ho], hattrs.kind_mem⟩, by simp [hc], ih⟩
  | alone ho hattrs hc _ _ ih =>
    simp only [List.forall_mem_append, List.forall_mem_cons]
    exact ⟨⟨by simp [ho], hattrs.kind_mem⟩, by simp [Token.kind_of_endsOpenTag hc], ih⟩
  | paired ho hattrs hc _ _ hclose _ _ ihbody ih =>
    simp only [List.forall_mem_append, List.forall_mem_cons]
    exact ⟨⟨by simp [ho], hattrs.kind_mem⟩, by simp [Token.kind_of_endsOpenTag hc], ihbody,
      by simp [Token.kind_of_isClosingTag hclose], ih⟩

/-- The tokens in front of the end mark. -/
theorem takeWhile_kind_ne_eof {body : List Token} {last : Token} (hbody : ∀ t ∈ body, t.kind ≠ .eof)
    (hlast : last.kind = .eof) : (body ++ [last]).takeWhile (fun t => t.kind != .eof) = body := by
  rw [List.takeWhile_append_of_pos (by simpa using hbody)]
  simp [hlast]

/-- A document that starts with something else has no script. -/
theorem Reader.begin_of_ne {tokens : List Token} (h : ∀ t ∈ tokens.head?, t.kind ≠ .frontmatter) :
    Reader.begin tokens = (Reader.start tokens, tokens) := by
  cases tokens with
  | nil => rfl
  | cons t ts =>
    have hkind : (t.kind == .frontmatter) = false := by simpa using h t rfl
    simp [Reader.begin, hkind]

/-- The reader behind a script. -/
theorem Reader.begin_of_script (h : t.kind = .frontmatter) (ts : List Token) :
    Reader.begin (t :: ts) =
      ({ (Reader.start (t :: ts)).past t with nodes := [.frontmatter t.value t.span] }, ts) := by
  simp [Reader.begin, h]

/-- With nothing open, the end of the document adds nothing. -/
theorem Reader.finish_eq (hplace : r.place = .content) (hframes : r.frames = []) :
    r.finish = r := by
  simp [Reader.finish, Reader.endTag, hplace, hframes, Reader.closeAll]

/-- What a reader that had nothing open gains is found in the tree. -/
theorem Reader.Gains.finish (h : r.Gains ns s) (hframes : r.frames = []) (hfound : r.found = []) :
    s.finish.nodes = pushAll ns r.nodes ∧ Harmless s.finish.found.reverse := by
  have hbuilt : s.built = ([], pushAll ns r.nodes) := by
    rw [h.built, Reader.built, hframes, Built.foldl_push_nil]
  obtain ⟨ds, hds, hharmless⟩ := h.found
  rw [Reader.finish_eq h.place (congrArg Prod.fst hbuilt)]
  refine ⟨congrArg Prod.snd hbuilt, fun d hd => hharmless d ?_⟩
  rw [hds, hfound, List.append_nil] at hd
  exact List.mem_reverse.mp hd

/-- **The tree of a document is its derivation tree**, and there is nothing to complain about but
second directives. -/
theorem Document.parseTokens {tokens : List Token} {f : Fragment} (h : Document tokens f)
    (hcomplete : ∀ t ∈ tokens, t.incomplete = false) :
    (parseTokens tokens).tree = f ∧ Harmless (parseTokens tokens).diagnostics := by
  cases h with
  | @plain last body nodes hbody hlast =>
    have hhead : ∀ t ∈ (body ++ [last]).head?, t.kind ≠ .frontmatter := by
      intro t ht
      rcases List.mem_append.mp (List.mem_of_mem_head? ht) with hmem | hmem
      · exact (hbody.kind_mem t hmem).2
      · rw [List.mem_singleton.mp hmem, hlast]
        decide
    have hgains := hbody.gains (fun t ht => hcomplete t (List.mem_append_left _ ht))
      (r := Reader.start (body ++ [last])) rfl
    obtain ⟨hnodes, hharmless⟩ := hgains.finish rfl rfl
    simp only [Markup.parseTokens, Reader.begin_of_ne hhead,
      takeWhile_kind_ne_eof (fun t ht => (hbody.kind_mem t ht).1) hlast, hnodes]
    refine ⟨?_, hharmless⟩
    rw [show (Reader.start (body ++ [last])).nodes = [] from rfl, reverse_pushAll]
    rfl
  | @withScript script last body nodes hscript hbody hlast =>
    have hgains := hbody.gains (fun t ht => hcomplete t (by simp [ht]))
      (r := { (Reader.start (script :: (body ++ [last]))).past script with
        nodes := [.frontmatter script.value script.span] }) rfl
    obtain ⟨hnodes, hharmless⟩ := hgains.finish rfl rfl
    simp only [Markup.parseTokens, List.cons_append, Reader.begin_of_script hscript,
      takeWhile_kind_ne_eof (fun t ht => (hbody.kind_mem t ht).1) hlast, hnodes]
    refine ⟨?_, hharmless⟩
    rw [show pushAll nodes [Node.frontmatter script.value script.span] =
      pushAll (.frontmatter script.value script.span :: nodes) [] from rfl, reverse_pushAll]
    rfl

end Markup
end Atoll
