import Atoll.Proofs.Acceptance
import Atoll.Proofs.Shape

/-!
# Nodes lie where their text is

Every node of a parsed document has a span, and so has every diagnostic.  Where a document is
broken, the end of a node comes from whatever token was read last, and texts are joined over tokens
that are passed over.  Still the spans nest, and but for one kind of breakage they say exactly where
a text is found.

* `Span.Within`, `Span.slice` — a stretch of a text, and what stands there.
* `Node.Placed` — what holds of every node: it has its children inside, in their order and apart,
  and a text or a placeholder is what stands in its place.
* `Row`, `Stacked` — the nodes that a reader has, and its open elements, lie one behind the other.
  A closing tag and the end of the document close elements at the place that was reached.
* `Reader.Between`, `Reader.InTag` — the invariant of the reader between tags and inside an opening
  tag, with one lemma for every kind of token that the lexer leaves there.
* `Lexed.between` — **every run keeps it**, by induction on the tokens.
* `parse_placed` — hence the whole tree and all diagnostics are in their place.
-/

set_option autoImplicit false

namespace Atoll

theorem Position.Exact.nonneg {s : List Char} {p : Position} (h : p.Exact s) : 0 ≤ p.offset := by
  obtain ⟨k, _, hoffset, _⟩ := h
  omega

theorem Position.Exact.le_length {s : List Char} {p : Position} (h : p.Exact s) :
    p.offset ≤ s.length := by
  obtain ⟨k, hk, hoffset, _⟩ := h
  omega

namespace Span

/-- The span is a stretch of the text, and its lines and columns are those of the text. -/
structure Within (s : List Char) (span : Span) : Prop where
  nonneg : 0 ≤ span.start.offset
  forward : span.start.offset ≤ span.stop.offset
  le_length : span.stop.offset ≤ s.length
  start : span.start.Exact s
  stop : span.stop.Exact s

/-- What stands in a text between the two ends of a span. -/
def slice (s : List Char) (span : Span) : String :=
  String.ofList ((s.take span.stop.offset.toNat).drop span.start.offset.toNat)

theorem Within.of {s : List Char} {p q : Position} (hp : p.Exact s) (hq : q.Exact s)
    (hle : p.offset ≤ q.offset) : Within s ⟨p, q⟩ :=
  ⟨hp.nonneg, hle, hq.le_length, hp, hq⟩

/-- Two stretches of which one goes on where the other stops. -/
theorem slice_append {s : List Char} {a b : Span} (ha : a.Within s) (hb : b.Within s)
    (h : a.stop.offset = b.start.offset) :
    a.slice s ++ b.slice s = slice s ⟨a.start, b.stop⟩ := by
  have hfirst := ha.forward
  have hsecond := hb.forward
  have hlength := hb.le_length
  have hnonneg := ha.nonneg
  rw [slice, slice, slice, ← String.ofList_append, ← h]
  congr 1
  generalize hi : a.start.offset.toNat = i
  generalize hj : a.stop.offset.toNat = j
  generalize hk : b.stop.offset.toNat = k
  have hij : i ≤ j := by omega
  have hjk : j ≤ k := by omega
  have hlen : (s.take j).length = j := by
    rw [List.length_take]
    omega
  have htake : s.take k = s.take j ++ (s.take k).drop j := by
    conv_lhs => rw [← List.take_append_drop j (s.take k), List.take_take, Nat.min_eq_left hjk]
  conv_rhs => rw [htake, List.drop_append_of_le_length (by omega)]

end Span

namespace Markup

variable {r : Reader} {a b : Int} {k : Nat} {ns nodes : List Node} {n : Node} {ts : List Token}
  {h : Head} {frames : List Frame} {t : Token} {value? : Option Token}

/-! ## Nodes in their place -/

/-- A node of a document: its span is a stretch of the text with the spans of its children in it, in
their order and apart.  A placeholder stands there in its braces, and, unless texts were joined over
something that was passed over, a text as it is. -/
structure Node.Placed (s : List Char) (joined : Prop) (n : Node) : Prop where
  span : n.span.Within s
  inside : ∀ m ∈ n.children, n.span.start.offset ≤ m.span.start.offset ∧
    m.span.stop.offset ≤ n.span.stop.offset
  ordered : n.children.Pairwise fun m m' => m.span.stop.offset ≤ m'.span.start.offset
  text : ∀ value span, n = .text value span → ¬joined → value = span.slice s
  placeholder : ∀ code span incomplete, n = .expression code span incomplete → ∃ content,
    span.slice s = "\x7b" ++ content ++ (if incomplete then "" else "\x7d") ∧
      code = Text.strip content

/-- Whether a closing tag was passed over because no open element had its name. -/
def ParseResult.PassesOver (r : ParseResult) : Prop :=
  ∃ d ∈ r.diagnostics, d.problem.code = "unmatched-closing-tag"

/-- A parsed document, all of whose nodes and diagnostics are in their place.  The document goes
from its first node to its last one. -/
structure ParseResult.Placed (s : List Char) (r : ParseResult) : Prop where
  nodes : ∀ n ∈ r.tree.toNode.walk, n.Placed s r.PassesOver
  diagnostics : ∀ d ∈ r.diagnostics, d.span.Within s
  first : ∀ n ∈ r.tree.children.head?, r.tree.span.start = n.span.start
  last : ∀ n ∈ r.tree.children.getLast?, r.tree.span.stop = n.span.stop

/-! ## Tokens -/

section

variable {s : List Char} {a b : Nat} {t : Token}

theorem Token.Spans.within (h : t.Spans s a b) : t.span.Within s := by
  have hstart := Position.exact_ofOffset (s := s) (h.start_le.trans h.stop_le)
  have hstop := Position.exact_ofOffset (s := s) h.stop_le
  rw [h.span]
  refine .of hstart hstop ?_
  rw [Position.offset_ofOffset s a (h.start_le.trans h.stop_le),
    Position.offset_ofOffset s b h.stop_le]
  exact Int.ofNat_le.2 h.start_le

theorem Token.Spans.slice (h : t.Spans s a b) : t.span.slice s = t.raw := by
  rw [Span.slice, h.start_offset, h.stop_offset, h.raw]
  rfl

/-- What stands in front of tokens: the first of them starts there, or later if that is inside a
tag. -/
theorem Reads.cons_inv {inTag : Bool} (h : Reads s inTag k (t :: ts)) (ht : t.kind ≠ .eof) :
    ∃ a b, k ≤ a ∧ (inTag = false → a = k) ∧ t.Spans s a b ∧ t.Fits ∧
      Reads s t.kind.leavesGap b ts := by
  generalize hts : t :: ts = tokens at h
  induction h with
  | done =>
    cases hts
    exact absurd rfl ht
  | token hspan hfits _ hrest _ =>
    cases hts
    exact ⟨_, _, le_refl _, fun _ => rfl, hspan, hfits, hrest⟩
  | skip n _ ih =>
    obtain ⟨a, b, hle, _, hrest⟩ := ih hts
    exact ⟨a, b, by omega, by simp, hrest⟩

end

/-! ## Rows of nodes -/

variable {s : List Char} {joined : Prop}

/-- A node with all nodes below it. -/
def Node.AllPlaced (s : List Char) (joined : Prop) (n : Node) : Prop :=
  ∀ m ∈ n.walk, m.Placed s joined

/-- Nodes between two offsets, last one first. -/
structure Row (s : List Char) (joined : Prop) (a b : Int) (nodes : List Node) : Prop where
  le : a ≤ b
  inside : ∀ n ∈ nodes, a ≤ n.span.start.offset ∧ n.span.stop.offset ≤ b
  ordered : nodes.Pairwise fun n m => m.span.stop.offset ≤ n.span.start.offset
  placed : ∀ n ∈ nodes, n.AllPlaced s joined

/-- A text at this offset goes on where the last node stops, if that is a text too. -/
def Joins (joined : Prop) (nodes : List Node) (k : Int) : Prop :=
  ∀ value span, nodes.head? = some (.text value span) → ¬joined → span.stop.offset = k

theorem Row.nil (h : a ≤ b) : Row s joined a b [] :=
  ⟨h, by simp, .nil, by simp⟩

theorem Row.mono {c : Int} (h : Row s joined a b ns) (hbc : b ≤ c) : Row s joined a c ns :=
  ⟨h.le.trans hbc, fun n hn => ⟨(h.inside n hn).1, (h.inside n hn).2.trans hbc⟩, h.ordered,
    h.placed⟩

theorem Node.AllPlaced.self (h : n.AllPlaced s joined) : n.Placed s joined :=
  h n n.mem_walk_self

/-- A node without children. -/
theorem allPlaced_text {value : String} {span : Span} (hspan : span.Within s)
    (hvalue : ¬joined → value = span.slice s) : (Node.text value span).AllPlaced s joined := by
  intro m hm
  rw [List.mem_singleton.1 hm]
  refine ⟨hspan, by simp [Node.children], .nil, ?_, by simp⟩
  rintro _ _ ⟨⟩
  exact hvalue

theorem allPlaced_expression {content : String} {span : Span} {incomplete : Bool}
    (hspan : span.Within s)
    (hslice : span.slice s = "\x7b" ++ content ++ (if incomplete then "" else "\x7d")) :
    (Node.expression (Text.strip content) span incomplete).AllPlaced s joined := by
  intro m hm
  rw [List.mem_singleton.1 hm]
  refine ⟨hspan, by simp [Node.children], .nil, by simp, ?_⟩
  rintro _ _ _ ⟨⟩
  exact ⟨content, hslice, rfl⟩

theorem allPlaced_frontmatter {code : String} {span : Span} (hspan : span.Within s) :
    (Node.frontmatter code span).AllPlaced s joined := by
  intro m hm
  rw [List.mem_singleton.1 hm]
  exact ⟨hspan, by simp [Node.children], .nil, by simp, by simp⟩

section

variable {c : Int} (hrow : Row s joined a b ns) (hn : n.AllPlaced s joined)
  (hstart : b ≤ n.span.start.offset) (hstop : n.span.stop.offset ≤ c)
include hrow hn hstart hstop

theorem Row.cons : Row s joined a c (n :: ns) := by
  have hle := hrow.le
  have hforward := hn.self.span.forward
  refine ⟨by omega, List.forall_mem_cons.2 ⟨⟨by omega, hstop⟩, fun m hm => ?_⟩, ?_,
    List.forall_mem_cons.2 ⟨hn, hrow.placed⟩⟩
  · have hin := hrow.inside m hm
    exact ⟨hin.1, by omega⟩
  · exact List.pairwise_cons.2 ⟨fun m hm => (hrow.inside m hm).2.trans hstart, hrow.ordered⟩

/-- A node goes behind a row.  Two texts become one, from the start of the first to the end of the
second. -/
theorem Row.push (hjoins : n.isText = true → Joins joined ns n.span.start.offset) :
    Row s joined a c (pushNode n ns) := by
  unfold pushNode
  split
  · rename_i value span before first rest
    have hfirst := hrow.placed _ List.mem_cons_self
    have hin := hrow.inside _ List.mem_cons_self
    obtain ⟨hbefore, hordered⟩ := List.pairwise_cons.1 hrow.ordered
    -- the row without its last text, which ends where that text starts
    have hrest : Row s joined a first.start.offset rest :=
      ⟨hin.1, fun m hm => ⟨(hrow.inside m (List.mem_cons_of_mem _ hm)).1, hbefore m hm⟩, hordered,
        fun m hm => hrow.placed m (List.mem_cons_of_mem _ hm)⟩
    have hspan : span.Within s := hn.self.span
    have hfirstspan : first.Within s := hfirst.self.span
    have hle : first.start.offset ≤ span.stop.offset :=
      hfirstspan.forward.trans ((hin.2.trans hstart).trans hspan.forward)
    refine hrest.cons (allPlaced_text (.of hfirstspan.start hspan.stop hle) ?_) (le_refl _) hstop
    intro hnot
    rw [hfirst.self.text _ _ rfl hnot, hn.self.text _ _ rfl hnot]
    exact Span.slice_append hfirstspan hspan (hjoins rfl before first rfl hnot)
  · exact hrow.cons hn hstart hstop

end

/-- A text, joined or not, stops where it did. -/
theorem joins_pushNode (value : String) (span : Span) (ns : List Node) :
    Joins joined (pushNode (.text value span) ns) span.stop.offset := by
  unfold pushNode
  split
  · rename_i hnode
    cases hnode
    rintro _ _ ⟨⟩ _
    rfl
  · rintro _ _ ⟨⟩ _
    rfl

/-! ## Elements -/

theorem Head.span_close (h : Head) (children : List Node) (selfClosing : Bool) (stop : Position) :
    (h.close children selfClosing stop).span = ⟨h.token.span.start, stop⟩ := by
  rw [Head.close]
  split <;> rfl

theorem Head.isText_close (h : Head) (children : List Node) (selfClosing : Bool)
    (stop : Position) : (h.close children selfClosing stop).isText = false := by
  rw [Head.close]
  split <;> rfl

/-- An element of a row of children ends where the row does. -/
theorem Head.allPlaced_close {stop : Position} {children : List Node}
    (hstart : h.token.span.start.Exact s) (hstop : stop.Exact s)
    (hrow : Row s joined h.token.span.start.offset stop.offset children) (selfClosing : Bool) :
    (h.close children.reverse selfClosing stop).AllPlaced s joined := by
  have hspan : Span.Within s ⟨h.token.span.start, stop⟩ := .of hstart hstop hrow.le
  have hinside : ∀ m ∈ children.reverse, h.token.span.start.offset ≤ m.span.start.offset ∧
      m.span.stop.offset ≤ stop.offset := fun m hm => hrow.inside m (List.mem_reverse.1 hm)
  have hordered := List.pairwise_reverse.2 hrow.ordered
  have hbelow : ∀ m ∈ Node.walkAll children.reverse, m.Placed s joined := by
    intro m hm
    obtain ⟨n, hn, hmem⟩ := Node.mem_walkAll.1 hm
    exact hrow.placed n (List.mem_reverse.1 hn) m hmem
  rw [Head.close]
  split
  · exact List.forall_mem_cons.2 ⟨⟨hspan, hinside, hordered, by simp, by simp⟩, hbelow⟩
  · exact List.forall_mem_cons.2 ⟨⟨hspan, hinside, hordered, by simp, by simp⟩, hbelow⟩

/-- Open elements, given from the innermost on, up to an offset.  The children of each fill it up to
the start of the next one. -/
def Stacked (s : List Char) (joined : Prop) : Int → List Frame → List Node → Prop
  | stop, [], nodes => Row s joined 0 stop nodes
  | stop, f :: fs, nodes =>
    f.head.token.span.Within s ∧ Row s joined f.head.token.span.start.offset stop f.children ∧
      Stacked s joined f.head.token.span.start.offset fs nodes

theorem Stacked.mono (h : Stacked s joined a frames nodes)
    (hab : a ≤ b) : Stacked s joined b frames nodes := by
  cases frames with
  | nil => exact Row.mono h hab
  | cons f fs => exact ⟨h.1, h.2.1.mono hab, h.2.2⟩

theorem Stacked.heads
    (h : Stacked s joined a frames nodes) : ∀ f ∈ frames, f.head.token.span.Within s := by
  induction frames generalizing a with
  | nil => simp
  | cons f fs ih => exact List.forall_mem_cons.2 ⟨h.1, ih h.2.2⟩

/-! ## The reader -/

namespace Reader

/-- The children so far of the innermost open element, last one first. -/
def innermost (r : Reader) : List Node :=
  match r.frames with
  | f :: _ => f.children
  | [] => r.nodes

/-- All that the reader has lies in the text before an offset. -/
structure Grounded (s : List Char) (joined : Prop) (k : Int) (r : Reader) : Prop where
  last : r.last.Exact s
  found : ∀ d ∈ r.found, d.span.Within s
  stack : Stacked s joined k r.frames r.nodes

theorem Grounded.note {k : Int} (h : r.Grounded s joined k) (problem : Problem) {span : Span}
    (hspan : span.Within s) : (r.note problem span).Grounded s joined k :=
  ⟨h.last, List.forall_mem_cons.2 ⟨hspan, h.found⟩, h.stack⟩

theorem Grounded.past {j k : Int} (h : r.Grounded s joined j) (hjk : j ≤ k)
    (ht : t.span.Within s) : (r.past t).Grounded s joined k :=
  ⟨ht.stop, h.found, h.stack.mono hjk⟩

theorem last_add (r : Reader) (n : Node) : (r.add n).last = r.last := by
  rw [add]
  split <;> rfl

/-- A node goes behind all that the reader has. -/
theorem Grounded.add {j k : Int} (h : r.Grounded s joined j) (hn : n.AllPlaced s joined)
    (hstart : j ≤ n.span.start.offset) (hstop : n.span.stop.offset ≤ k)
    (hjoins : n.isText = true → Joins joined r.innermost n.span.start.offset) :
    (r.add n).Grounded s joined k := by
  refine ⟨by rw [last_add]; exact h.last, by rw [found_add]; exact h.found, ?_⟩
  have hstack := h.stack
  rw [Reader.add]
  split
  · rename_i f fs hframes
    rw [innermost, hframes] at hjoins
    rw [hframes] at hstack
    exact ⟨hstack.1, hstack.2.1.push hn hstart hstop hjoins, hstack.2.2⟩
  · rename_i hframes
    rw [innermost, hframes] at hjoins
    rw [hframes] at hstack
    dsimp only
    rw [hframes]
    exact Row.push hstack hn hstart hstop hjoins

theorem innermost_add (r : Reader) (n : Node) : (r.add n).innermost = pushNode n r.innermost := by
  obtain ⟨last, place, frames, nodes, found⟩ := r
  cases frames <;> rfl

/-- Behind a node that is no text, nothing is joined. -/
theorem joins_add (r : Reader) (hn : n.isText = false) (k : Int) :
    Joins joined (r.add n).innermost k := by
  rw [innermost_add]
  intro value span hhead
  cases n <;> simp [pushNode, Node.isText] at hn hhead

theorem length_frames_closeFrame (r : Reader) :
    r.closeFrame.frames.length = r.frames.length - 1 := by
  rw [closeFrame]
  split
  · rename_i f fs hframes
    rw [length_frames_add, hframes]
    rfl
  · rename_i hframes
    rw [hframes]
    rfl

theorem last_closeFrame (r : Reader) : r.closeFrame.last = r.last := by
  rw [closeFrame]
  split
  · exact last_add _ _
  · rfl

/-- An open element is closed at the place that was reached, and what follows starts behind it. -/
theorem Grounded.closeFrame (h : r.Grounded s joined r.last.offset) :
    r.closeFrame.Grounded s joined r.last.offset ∧
      (r.frames ≠ [] → ∀ k, Joins joined r.closeFrame.innermost k) := by
  have hstack := h.stack
  rw [Reader.closeFrame]
  split
  · rename_i f fs hframes
    rw [hframes] at hstack
    obtain ⟨hhead, hrow, hrest⟩ := hstack
    have hnode := f.head.allPlaced_close hhead.start h.last hrow false
    have hspan := f.head.span_close f.children.reverse false r.last
    have hnotext := f.head.isText_close f.children.reverse false r.last
    have hout : ({ r with frames := fs } : Reader).Grounded s joined
        f.head.token.span.start.offset := ⟨h.last, h.found, hrest⟩
    refine ⟨hout.add hnode ?_ ?_ (by simp [hnotext]), fun _ k => joins_add _ hnotext k⟩
    · rw [hspan]
    · rw [hspan]
  · rename_i hframes
    exact ⟨h, fun hne => absurd hframes hne⟩

/-! ## Between tags -/

/-- The reader stands between tags, and all that it has lies before that place. -/
structure Between (s : List Char) (joined : Prop) (r : Reader) : Prop where
  place : r.place = .content
  grounded : r.Grounded s joined r.last.offset
  joins : Joins joined r.innermost r.last.offset

/-- What a token is known to be that a reader between tags comes to: it stands right there. -/
structure Next (s : List Char) (r : Reader) (t : Token) : Prop where
  span : t.span.Within s
  slice : t.span.slice s = t.raw
  fits : t.Fits
  start : t.span.start.offset = r.last.offset

variable {r : Reader} {t : Token}

theorem Between.text (h : r.Between s joined) (hnext : r.Next s t) (ht : t.kind = .text) :
    (r.read t).Between s joined ∧ (r.read t).last = t.span.stop := by
  have hread : r.read t = (r.add (.text t.value t.span)).past t := by
    simp [read, h.place, readContent, ht]
  have hvalue : t.value = t.span.slice s := by
    have hfits := hnext.fits
    rw [Token.Fits, ht] at hfits
    rw [hnext.slice, hfits]
  have hadd : (r.add (.text t.value t.span)).Grounded s joined t.span.stop.offset :=
    h.grounded.add (allPlaced_text hnext.span fun _ => hvalue) (le_of_eq hnext.start.symm)
      (le_refl _) fun _ => by rw [Node.span, hnext.start]; exact h.joins
  rw [hread]
  refine ⟨⟨(place_add _ _).trans h.place, hadd.past (le_refl _) hnext.span, ?_⟩, rfl⟩
  -- the text, joined or not, is the last node and stops with the token
  show Joins joined (r.add (.text t.value t.span)).innermost t.span.stop.offset
  rw [innermost_add]
  exact joins_pushNode t.value t.span r.innermost

theorem Between.expression (h : r.Between s joined) (hnext : r.Next s t)
    (ht : t.kind = .expression) :
    (r.read t).Between s joined ∧ (r.read t).last = t.span.stop := by
  -- a complaint adds a diagnostic and nothing else
  obtain ⟨r', hr', hgrounded, hplace⟩ : ∃ r' : Reader,
      (if t.incomplete then r.note .unclosedExpression t.span else r) = r' ∧
        r'.Grounded s joined r.last.offset ∧ r'.place = .content := by
    split
    · exact ⟨_, rfl, h.grounded.note _ hnext.span, h.place⟩
    · exact ⟨_, rfl, h.grounded, h.place⟩
  have hread : r.read t =
      (r'.add (.expression (Text.strip t.value) t.span t.incomplete)).past t := by
    simp [read, h.place, readContent, ht, hr']
  have hslice : t.span.slice s =
      "\x7b" ++ t.value ++ (if t.incomplete then "" else "\x7d") := by
    have hfits := hnext.fits
    rw [Token.Fits, ht] at hfits
    rw [hnext.slice, hfits]
  have hadd := hgrounded.add (allPlaced_expression hnext.span hslice)
    (le_of_eq hnext.start.symm) (le_refl _) (by simp [Node.isText])
  rw [hread]
  refine ⟨⟨(place_add _ _).trans hplace, hadd.past (le_refl _) hnext.span, ?_⟩, rfl⟩
  exact joins_add r' rfl _

/-- A closing tag closes elements before it, and the one that it names behind it.  If it names none,
texts are joined over it from here on. -/
theorem between_closeTag (hlength : frames.length = r.frames.length) (hplace : r.place = .content)
    (hr : r.Grounded s joined r.last.offset) (ht : t.span.Within s)
    (hstart : r.last.offset ≤ t.span.start.offset) (hjoined : ∀ d ∈ (closeTag t frames r).found,
      d.problem.code = "unmatched-closing-tag" → joined) :
    (closeTag t frames r).Between s joined ∧ (closeTag t frames r).last = t.span.stop := by
  have hstop : r.last.offset ≤ t.span.stop.offset := hstart.trans ht.forward
  induction frames generalizing r with
  | nil =>
    have hpassed : joined := hjoined ⟨_, _⟩ List.mem_cons_self rfl
    exact ⟨⟨hplace, (hr.note _ ht).past hstop ht, fun _ _ _ hnot => absurd hpassed hnot⟩, rfl⟩
  | cons f fs ih =>
    have hframes : r.frames ≠ [] := by
      intro hnil
      rw [hnil] at hlength
      cases hlength
    rw [closeTag] at hjoined ⊢
    split
    · obtain ⟨hclosed, hjoins⟩ := Grounded.closeFrame (r := r.past t) (hr.past hstop ht)
      have hlast := last_closeFrame (r.past t)
      refine ⟨⟨(place_closeFrame _).trans hplace, ?_, ?_⟩, hlast⟩
      · rw [hlast]
        exact hclosed
      · exact hjoins hframes _
    · rename_i hname
      rw [if_neg hname] at hjoined
      have hnoted := hr.note (.mismatchedTag f.head.token.value t.value) ht
      obtain ⟨hclosed, _⟩ := Grounded.closeFrame (r := r.note _ _) hnoted
      have hlast := last_closeFrame (r.note (.mismatchedTag f.head.token.value t.value) t.span)
      refine ih ?_ ((place_closeFrame _).trans hplace) ?_ ?_ hjoined ?_
      · rw [length_frames_closeFrame, note, ← hlength]
        rfl
      · rw [hlast]
        exact hclosed
      · rw [hlast]
        exact hstart
      · rw [hlast]
        exact hstop

theorem Between.closing (h : r.Between s joined) (hnext : r.Next s t)
    (ht : t.isClosingTag = true)
    (hjoined : ∀ d ∈ (r.read t).found, d.problem.code = "unmatched-closing-tag" → joined) :
    (r.read t).Between s joined ∧ (r.read t).last = t.span.stop := by
  have hread : r.read t = closeTag t r.frames r := by
    simp [read, h.place, readContent, Token.kind_of_isClosingTag ht, ht]
  rw [hread] at hjoined ⊢
  exact between_closeTag rfl h.place h.grounded hnext.span (le_of_eq hnext.start.symm) hjoined

/-! ## Inside opening tags -/

/-- The reader is in an opening tag, and all else that it has lies before the tag. -/
structure Inside (s : List Char) (joined : Prop) (h : Head) (r : Reader) : Prop where
  head : h.token.span.Within s
  reached : h.token.span.start.offset ≤ r.last.offset
  grounded : r.Grounded s joined h.token.span.start.offset

/-- The reader is among the attributes of an opening tag, maybe behind a name. -/
def InTag (s : List Char) (joined : Prop) (r : Reader) : Prop :=
  ∃ h : Head, r.Inside s joined h ∧ (r.place = .tag h ∨ ∃ name : Token, r.place = .value h name ∧
    name.span.Within s ∧ name.span.stop.offset ≤ r.last.offset)

theorem Between.opening (h : r.Between s joined) (hnext : r.Next s t) (ht : t.kind = .tagOpen) :
    (r.read t).InTag s joined ∧ (r.read t).last = t.span.stop := by
  have hread : r.read t = { r.past t with place := .tag ⟨t, []⟩ } := by
    simp [read, h.place, readContent, ht]
  have hpast := h.grounded.past (le_of_eq hnext.start.symm) hnext.span
  rw [hread]
  exact ⟨⟨⟨t, []⟩, ⟨hnext.span, hnext.span.forward, hpast.last, hpast.found, hpast.stack⟩,
    .inl rfl⟩, rfl⟩

/-- An attribute, and what is wrong with its value, is found where its tokens are. -/
theorem attrOf_within {name : Token} (hname : name.span.Within s)
    (hvalue : ∀ value ∈ value?, value.span.Within s ∧
      name.span.stop.offset ≤ value.span.start.offset) :
    (attrOf name value?).1.span.Within s ∧ ∀ d ∈ (attrOf name value?).2, d.span.Within s := by
  rcases value? with _ | value
  · exact ⟨hname, by simp [attrOf]⟩
  obtain ⟨hwithin, hbehind⟩ := hvalue value rfl
  have hspan : Span.Within s ⟨name.span.start, value.span.stop⟩ :=
    .of hname.start hwithin.stop ((hname.forward.trans hbehind).trans hwithin.forward)
  have hincomplete : ∀ problem : Problem, ∀ d ∈
      (if value.incomplete then some (⟨problem, value.span⟩ : Diagnostic) else none),
        d.span.Within s := by
    intro problem d hd
    split at hd
    · cases hd
      exact hwithin
    · cases hd
  unfold attrOf
  dsimp only
  split
  · exact ⟨hspan, by simp⟩
  · exact ⟨hspan, hincomplete _⟩
  · split
    · exact ⟨hspan, hincomplete _⟩
    · exact ⟨hspan, by simp⟩

/-- Another attribute leaves the reader in the tag. -/
theorem Inside.addAttribute {name : Token} (hr : r.Inside s joined h) (hname : name.span.Within s)
    (hvalue : ∀ value ∈ value?, value.span.Within s ∧
      name.span.stop.offset ≤ value.span.start.offset) :
    (r.addAttribute h name value?).1.Inside s joined (r.addAttribute h name value?).2 := by
  obtain ⟨hattr, hproblem⟩ := attrOf_within hname hvalue
  rw [Reader.addAttribute]
  generalize attrOf name value? = made at hattr hproblem
  refine ⟨hr.head, hr.reached, hr.grounded.last, ?_, hr.grounded.stack⟩
  refine List.forall_mem_append.2 ⟨List.forall_mem_append.2 ⟨?_, ?_⟩, hr.grounded.found⟩
  · intro d hd
    split at hd
    · rw [List.mem_singleton.1 hd]
      exact hattr
    · cases hd
  · exact fun d hd => hproblem d (Option.mem_toList.1 hd)

/-- An attribute without a value. -/
theorem Inside.addBare {name : Token} (hr : r.Inside s joined h) (hname : name.span.Within s) :
    (r.addAttribute h name none).1.Inside s joined (r.addAttribute h name none).2 :=
  hr.addAttribute hname (by simp)

/-- A token that is no value is read when the attribute before it is complete. -/
theorem InTag.settle (h : r.InTag s joined) (ht : t.kind ≠ .attrValue) :
    ∃ (r' : Reader) (head : Head), r'.Inside s joined head ∧ r'.last = r.last ∧
      r.read t = r'.readTag head t := by
  obtain ⟨head, hinside, hplace | ⟨name, hplace, hname, _⟩⟩ := h
  · exact ⟨r, head, hinside, rfl, by simp [read, hplace]⟩
  · have hkind : (t.kind == .attrValue) = false := by simpa using ht
    exact ⟨_, _, hinside.addBare hname, rfl, by simp [read, hplace, hkind]⟩

/-- What a token is known to be that a reader inside a tag comes to: it is there or further on. -/
structure Ahead (s : List Char) (r : Reader) (t : Token) : Prop where
  span : t.span.Within s
  start : r.last.offset ≤ t.span.start.offset

theorem Inside.start_le {r' : Reader} {head : Head} (h : r'.Inside s joined head)
    (hlast : r'.last = r.last) (hahead : r.Ahead s t) :
    head.token.span.start.offset ≤ t.span.stop.offset := by
  have hreached := h.reached
  rw [hlast] at hreached
  exact (hreached.trans hahead.start).trans hahead.span.forward

theorem InTag.name (h : r.InTag s joined) (hahead : r.Ahead s t) (ht : t.kind = .attrName) :
    (r.read t).InTag s joined ∧ (r.read t).last = t.span.stop ∧
      ∃ head, (r.read t).place = .value head t := by
  obtain ⟨r', head, hinside, hlast, hread⟩ := h.settle (t := t) (by rw [ht]; decide)
  have hstop := hinside.start_le hlast hahead
  have hname : r'.readTag head t = { r'.past t with place := .value head t } := by
    simp [readTag, ht]
  rw [hread, hname]
  have hpast := hinside.grounded.past (le_refl _) hahead.span
  exact ⟨⟨head, ⟨hinside.head, hstop, hpast.last, hpast.found, hpast.stack⟩,
    .inr ⟨t, rfl, hahead.span, le_refl _⟩⟩, rfl, head, rfl⟩

theorem InTag.value {head : Head} {name : Token} (h : r.InTag s joined)
    (hplace : r.place = .value head name) (hahead : r.Ahead s t) (ht : t.kind = .attrValue) :
    (r.read t).InTag s joined ∧ (r.read t).last = t.span.stop := by
  obtain ⟨head', hinside, hplace' | ⟨name', hplace', hname, hbehind⟩⟩ := h
  · rw [hplace] at hplace'
    cases hplace'
  · rw [hplace] at hplace'
    cases hplace'
    have hpast := hinside.grounded.past (le_refl _) hahead.span
    have hstop : head.token.span.start.offset ≤ t.span.stop.offset :=
      (hinside.reached.trans hahead.start).trans hahead.span.forward
    have hadded : ((r.past t).addAttribute head name (some t)).1.Inside s joined
        ((r.past t).addAttribute head name (some t)).2 := by
      refine Inside.addAttribute ⟨hinside.head, hstop, hpast⟩ hname ?_
      rintro _ ⟨⟩
      exact ⟨hahead.span, hbehind.trans hahead.start⟩
    have hread : r.read t = ((r.past t).addAttribute head name (some t)).1.inTag
        ((r.past t).addAttribute head name (some t)).2 := by
      simp only [read, hplace, ht, beq_self_eq_true, if_true]
      rfl
    rw [hread]
    exact ⟨⟨_, ⟨hadded.head, hadded.reached, hadded.grounded.last, hadded.grounded.found,
      hadded.grounded.stack⟩, .inl rfl⟩, rfl⟩

/-- An element without content lies from its opening tag to the place that was reached. -/
theorem Inside.close {head : Head} (h : r.Inside s joined head) (selfClosing : Bool) :
    (({ r with place := .content } : Reader).add
      (head.close [] selfClosing r.last)).Between s joined ∧
    (({ r with place := .content } : Reader).add
      (head.close [] selfClosing r.last)).last = r.last := by
  have hnode : (head.close [] selfClosing r.last).AllPlaced s joined :=
    Head.allPlaced_close h.head.start h.grounded.last (.nil h.reached) selfClosing
  have hnotext := head.isText_close [] selfClosing r.last
  have hspan := head.span_close [] selfClosing r.last
  have hcontent : ({ r with place := .content } : Reader).Grounded s joined
      head.token.span.start.offset := ⟨h.grounded.last, h.grounded.found, h.grounded.stack⟩
  have hlast := last_add { r with place := .content } (head.close [] selfClosing r.last)
  refine ⟨⟨place_add _ _, ?_, joins_add _ hnotext _⟩, hlast⟩
  rw [hlast]
  refine hcontent.add hnode ?_ ?_ (by simp [hnotext])
  · rw [hspan]
  · rw [hspan]

theorem InTag.ending (h : r.InTag s joined) (hahead : r.Ahead s t) (ht : t.endsTag = true) :
    (r.read t).Between s joined ∧ (r.read t).last = t.span.stop := by
  obtain ⟨r', head, hinside, hlast, hread⟩ := h.settle (Token.kind_ne_of_endsTag ht)
  rw [Token.endsTag, Bool.or_eq_true, beq_iff_eq] at ht
  have hstop := hinside.start_le hlast hahead
  have hpast : (r'.past t).Inside s joined head :=
    ⟨hinside.head, hstop, hinside.grounded.past (le_refl _) hahead.span⟩
  rw [hread]
  rcases ht with ht | ht
  · have hself : r'.readTag head t = (r'.past t).selfClose head := by simp [readTag, ht]
    rw [hself]
    exact hpast.close true
  · cases halone : standsAlone head.token.value with
    | true =>
      have hclosed : r'.readTag head t =
          { r'.past t with place := .content }.add (head.close [] false t.span.stop) := by
        rw [readTag_endsOpenTag ht, openTag, Bool.and_comm, ← standsAlone, halone, if_pos rfl]
        rfl
      rw [hclosed]
      exact hpast.close false
    | false =>
      -- an open element has no children yet
      rw [readTag_opens ht r' head halone]
      exact ⟨⟨rfl, ⟨hpast.grounded.last, hpast.grounded.found, hinside.head, .nil hstop,
        hpast.grounded.stack⟩, by simp [Joins, innermost]⟩, rfl⟩

/-! ## The end of the document -/

theorem InTag.endTag (h : r.InTag s joined) : r.endTag.Between s joined := by
  obtain ⟨r', head, hinside, hend⟩ : ∃ (r' : Reader) (head : Head), r'.Inside s joined head ∧
      r.endTag = r'.abandon head := by
    obtain ⟨head, hinside, hplace | ⟨name, hplace, hname, _⟩⟩ := h
    · exact ⟨r, head, hinside, by simp [Reader.endTag, hplace]⟩
    · exact ⟨_, _, hinside.addBare hname, by simp [Reader.endTag, hplace]⟩
  have hnoted : (r'.note (.unfinishedTag head.token.value)
      ⟨head.token.span.start, r'.last⟩).Inside s joined head :=
    ⟨hinside.head, hinside.reached,
      hinside.grounded.note _ (.of hinside.head.start hinside.grounded.last hinside.reached)⟩
  rw [hend]
  exact (hnoted.close true).1

/-- Elements that are never closed end with the document. -/
theorem Grounded.closeAll {frames : List Frame} (hr : r.Grounded s joined r.last.offset)
    (hheads : ∀ f ∈ frames, f.head.token.span.Within s) :
    (closeAll frames r).Grounded s joined r.last.offset := by
  induction frames generalizing r with
  | nil => exact hr
  | cons f fs ih =>
    obtain ⟨hhead, hheads⟩ := List.forall_mem_cons.1 hheads
    have hnoted := hr.note (.unclosedTag f.head.token.value) hhead
    obtain ⟨hclosed, _⟩ := Grounded.closeFrame (r := r.note _ _) hnoted
    have hlast := last_closeFrame (r.note (.unclosedTag f.head.token.value) f.head.token.span)
    have hnext : (r.note (.unclosedTag f.head.token.value)
        f.head.token.span).closeFrame.Grounded s joined
          (r.note (.unclosedTag f.head.token.value) f.head.token.span).closeFrame.last.offset := by
      rw [hlast]
      exact hclosed
    have hall := ih hnext hheads
    rw [hlast] at hall
    exact hall

/-- At the end all nodes lie in the text, one behind the other, and so do the diagnostics. -/
theorem Between.closed (h : r.Between s joined) :
    Row s joined 0 r.last.offset (closeAll r.frames r).nodes ∧
      ∀ d ∈ (closeAll r.frames r).found, d.span.Within s := by
  have hall := h.grounded.closeAll h.grounded.stack.heads
  have hstack := hall.stack
  rw [frames_closeAll r.frames r rfl] at hstack
  exact ⟨hstack, hall.found⟩

end Reader

/-! ## Whole runs -/

/-- Between tags the first token starts where the reader stands. -/
theorem Reads.next (h : Reads s false k (t :: ts)) (ht : t.kind ≠ .eof)
    (hlast : r.last.offset = k) :
    r.Next s t ∧ ∃ b : Nat, t.span.stop.offset = b ∧ Reads s t.kind.leavesGap b ts := by
  obtain ⟨a, b, _, ha, hspan, hfits, hrest⟩ := h.cons_inv ht
  exact ⟨⟨hspan.within, hspan.slice, hfits, by rw [hspan.start_offset, hlast, ha rfl]⟩, b,
    hspan.stop_offset, hrest⟩

/-- Inside a tag the first token starts there or further on. -/
theorem Reads.ahead (h : Reads s true k (t :: ts)) (ht : t.kind ≠ .eof)
    (hlast : r.last.offset = k) :
    r.Ahead s t ∧ ∃ b : Nat, t.span.stop.offset = b ∧ Reads s t.kind.leavesGap b ts := by
  obtain ⟨a, b, ha, _, hspan, _, hrest⟩ := h.cons_inv ht
  refine ⟨⟨hspan.within, ?_⟩, b, hspan.stop_offset, hrest⟩
  rw [hspan.start_offset, hlast]
  exact Int.ofNat_le.2 ha

/-- A run takes no complaint back. -/
theorem Reader.found_foldl (ts : List Token) (r : Reader) :
    r.found <:+ (ts.foldl Reader.read r).found := by
  induction ts generalizing r with
  | nil => exact List.suffix_rfl
  | cons t ts ih => exact (r.found_read t).trans (ih (r.read t))

/-- The reader stands between tags, or inside an opening tag. -/
def Reader.Stands (s : List Char) (joined : Prop) : Bool → Reader → Prop
  | false, r => r.Between s joined
  | true, r => r.InTag s joined

/-- **A run keeps everything in its place**, by induction on the tokens: each of them is where the
reader is, or further on inside a tag. -/
theorem Lexed.between {inTag : Bool} (h : Lexed inTag ts) {p : Position}
    (hreads : Reads s inTag k (ts ++ [Token.eofAt p])) (hr : r.Stands s joined inTag)
    (hlast : r.last.offset = k) (hjoined : ∀ d ∈ (ts.foldl Reader.read r).found,
      d.problem.code = "unmatched-closing-tag" → joined) :
    (ts.foldl Reader.read r).endTag.Between s joined := by
  induction h generalizing r k with
  | done inTag =>
    cases inTag with
    | false =>
      have hend : r.endTag = r := by simp [Reader.endTag, Reader.Between.place hr]
      rw [List.foldl_nil, hend]
      exact hr
    | true => exact Reader.InTag.endTag hr
  | text ht _ _ ih =>
    obtain ⟨hnext, b, hb, hrest⟩ := hreads.next (by simp [ht]) hlast
    obtain ⟨hbetween, hstop⟩ := Reader.Between.text hr hnext ht
    rw [ht] at hrest
    exact ih hrest hbetween (by rw [hstop, hb]) hjoined
  | expression ht _ ih =>
    obtain ⟨hnext, b, hb, hrest⟩ := hreads.next (by simp [ht]) hlast
    obtain ⟨hbetween, hstop⟩ := Reader.Between.expression hr hnext ht
    rw [ht] at hrest
    exact ih hrest hbetween (by rw [hstop, hb]) hjoined
  | @closing t ts ht _ _ ih =>
    have hkind := Token.kind_of_isClosingTag ht
    obtain ⟨hnext, b, hb, hrest⟩ := hreads.next (by simp [hkind]) hlast
    -- the rest of the run takes no complaint about this tag back
    obtain ⟨hbetween, hstop⟩ := Reader.Between.closing hr hnext ht
      fun d hd => hjoined d ((Reader.found_foldl ts (r.read t)).subset hd)
    rw [hkind] at hrest
    exact ih hrest hbetween (by rw [hstop, hb]) hjoined
  | opening ht _ _ ih =>
    obtain ⟨hnext, b, hb, hrest⟩ := hreads.next (by simp [ht]) hlast
    obtain ⟨hin, hstop⟩ := Reader.Between.opening hr hnext ht
    rw [ht] at hrest
    exact ih hrest hin (by rw [hstop, hb]) hjoined
  | bare hname _ _ ih =>
    obtain ⟨hahead, b, hb, hrest⟩ := hreads.ahead (by simp [hname]) hlast
    obtain ⟨hin, hstop, _⟩ := Reader.InTag.name hr hahead hname
    rw [hname] at hrest
    exact ih hrest hin (by rw [hstop, hb]) hjoined
  | @valued name value ts hname _ hkind _ _ ih =>
    obtain ⟨hahead, b, hb, hrest⟩ := hreads.ahead (by simp [hname]) hlast
    obtain ⟨hin, hstop, head, hplace⟩ := Reader.InTag.name hr hahead hname
    rw [hname] at hrest
    obtain ⟨hahead', b', hb', hrest'⟩ := Reads.ahead (r := r.read name) hrest (by simp [hkind])
      (by rw [hstop, hb])
    obtain ⟨hin', hstop'⟩ := hin.value hplace hahead' hkind
    rw [hkind] at hrest'
    exact ih hrest' hin' (by rw [hstop', hb']) hjoined
  | @ending t ts ht _ _ ih =>
    have hgap : t.kind ≠ .eof ∧ t.kind.leavesGap = false := by
      rw [Token.endsTag, Bool.or_eq_true, beq_iff_eq] at ht
      rcases ht with ht | ht
      · simp [ht, TokenKind.leavesGap]
      · simp [Token.kind_of_endsOpenTag ht, TokenKind.leavesGap]
    obtain ⟨hahead, b, hb, hrest⟩ := hreads.ahead hgap.1 hlast
    obtain ⟨hbetween, hstop⟩ := Reader.InTag.ending hr hahead ht
    rw [hgap.2] at hrest
    exact ih hrest hbetween (by rw [hstop, hb]) hjoined

/-! ## The tree -/

/-- Nodes one behind the other lie between the start of the first and the end of the last. -/
theorem Row.placed_root (h : Row s joined 0 b ns) :
    (Fragment.toNode ⟨ns.reverse, spanOf ns.reverse⟩).Placed s joined := by
  have hordered : ns.reverse.Pairwise fun m m' => m.span.stop.offset ≤ m'.span.start.offset :=
    List.pairwise_reverse.2 h.ordered
  have hplaced : ∀ n ∈ ns.reverse, n.span.Within s :=
    fun n hn => (h.placed n (List.mem_reverse.1 hn)).self.span
  suffices hspan : (spanOf ns.reverse).Within s ∧ ∀ m ∈ ns.reverse,
      (spanOf ns.reverse).start.offset ≤ m.span.start.offset ∧
        m.span.stop.offset ≤ (spanOf ns.reverse).stop.offset from
    ⟨hspan.1, hspan.2, hordered, by simp [Fragment.toNode], by simp [Fragment.toNode]⟩
  generalize ns.reverse = nodes at hordered hplaced
  rcases nodes with _ | ⟨first, rest⟩
  · have hfirst : Position.first.Exact s := Position.exact_ofOffset (Nat.zero_le s.length)
    exact ⟨.of hfirst hfirst (le_refl _), by simp⟩
  obtain ⟨init, last, hlast⟩ : ∃ init last, first :: rest = init ++ [last] :=
    ⟨_, _, (List.dropLast_concat_getLast (List.cons_ne_nil first rest)).symm⟩
  have hspan : spanOf (first :: rest) = ⟨first.span.start, last.span.stop⟩ := by
    rw [spanOf, List.head?_cons, hlast, List.getLast?_concat]
  have hinside : ∀ m ∈ first :: rest, first.span.start.offset ≤ m.span.start.offset ∧
      m.span.stop.offset ≤ last.span.stop.offset := by
    intro m hm
    constructor
    · rcases List.mem_cons.1 hm with rfl | hrest
      · exact le_refl _
      · exact (hplaced first List.mem_cons_self).forward.trans
          ((List.pairwise_cons.1 hordered).1 m hrest)
    · rw [hlast] at hm hordered hplaced
      rcases List.mem_append.1 hm with hinit | hsame
      · exact ((List.pairwise_append.1 hordered).2.2 m hinit last (by simp)).trans
          (hplaced last (by simp)).forward
      · rw [List.mem_singleton.1 hsame]
  have hlastmem : last ∈ first :: rest := by simp [hlast]
  rw [hspan]
  refine ⟨.of (hplaced first List.mem_cons_self).start (hplaced last hlastmem).stop ?_, hinside⟩
  exact (hplaced first List.mem_cons_self).forward.trans (hinside first List.mem_cons_self).2

/-- The tree of a row of nodes, with diagnostics in the text. -/
theorem Row.placed_result {found : List Diagnostic} (hfound : ∀ d ∈ found, d.span.Within s)
    (h : Row s (ParseResult.PassesOver ⟨⟨ns.reverse, spanOf ns.reverse⟩, found.reverse⟩) 0 b ns) :
    ParseResult.Placed s ⟨⟨ns.reverse, spanOf ns.reverse⟩, found.reverse⟩ where
  nodes := by
    refine List.forall_mem_cons.2 ⟨h.placed_root, fun m hm => ?_⟩
    obtain ⟨n, hn, hmem⟩ := Node.mem_walkAll.1 hm
    exact h.placed n (List.mem_reverse.1 hn) m hmem
  diagnostics := fun d hd => hfound d (List.mem_reverse.1 hd)
  first := by
    intro n hn
    obtain ⟨rest, hnodes⟩ : ∃ rest, ns.reverse = n :: rest := List.head?_eq_some_iff.1 hn
    dsimp only
    rw [hnodes, spanOf, List.head?_cons, List.getLast?_cons]
  last := by
    intro n hn
    obtain ⟨init, hnodes⟩ : ∃ init, ns.reverse = init ++ [n] := List.getLast?_eq_some_iff.1 hn
    dsimp only
    rw [hnodes, spanOf, List.getLast?_concat]
    cases init <;> rfl

/-- A reader with nothing open that stands where tokens start. -/
theorem Lexed.placed {body : List Token} (h : Lexed false body) {p : Position}
    (hreads : Reads s false k (body ++ [Token.eofAt p])) (hr : ∀ joined, r.Between s joined)
    (hlast : r.last.offset = k) :
    let reader := (body.foldl Reader.read r).finish
    ParseResult.Placed s ⟨⟨reader.nodes.reverse, spanOf reader.nodes.reverse⟩,
      reader.found.reverse⟩ := by
  intro reader
  have hbetween := h.between hreads (hr (ParseResult.PassesOver
    ⟨⟨reader.nodes.reverse, spanOf reader.nodes.reverse⟩, reader.found.reverse⟩)) hlast
    fun d hd hcode => ⟨d, List.mem_reverse.2 ((Reader.found_finish _).subset hd), hcode⟩
  obtain ⟨hrow, hfound⟩ := hbetween.closed
  exact hrow.placed_result hfound

/-- **Everything in a parsed document is in its place.**  Children lie inside their parents, in
their order and apart; a document goes from its first node to its last; nodes and diagnostics lie in
the text, at the right lines and columns; a placeholder is what its braces enclose there; and unless
a closing tag was passed over, a text is what stands in its place. -/
theorem parse_placed (source : String) :
    (parse source).Placed (Text.unifyNewlines source.toList) := by
  show (parseTokens (lex (Text.unifyNewlines source.toList))).Placed _
  generalize Text.unifyNewlines source.toList = s
  obtain ⟨body, p, hlexed, hlex | ⟨script, hscript, -, hlex⟩⟩ := lex_lexed s
  · have hreads := lex_reads s
    rw [hlex] at hreads ⊢
    simp only [parseTokens, Reader.begin_of_ne hlexed.head_ne, hlexed.takeWhile]
    have hstart : (Reader.start (body ++ [Token.eofAt p])).last.Exact s ∧
        (Reader.start (body ++ [Token.eofAt p])).last.offset = 0 := by
      obtain ⟨t, ht⟩ : ∃ t, (body ++ [Token.eofAt p]).head? = some t := by
        cases body <;> exact ⟨_, rfl⟩
      obtain ⟨⟨a, b, hspan⟩, _⟩ := hreads.spans t (List.mem_of_mem_head? ht)
      obtain ⟨hle, hlt⟩ := hreads.head t ht
      rw [Reader.start, ht]
      refine ⟨hspan.within.start, ?_⟩
      by_contra hne
      exact Bool.false_ne_true (hlt (by
        have hnot : t.span.start.offset ≠ 0 := hne
        omega))
    refine hlexed.placed hreads (fun joined => ⟨rfl, ⟨hstart.1, by simp [Reader.start], ?_⟩, ?_⟩)
      hstart.2
    · exact Row.nil hstart.1.nonneg
    · simp [Joins, Reader.innermost, Reader.start]
  · have hreads := lex_reads s
    rw [hlex, List.cons_append] at hreads
    rw [hlex, List.cons_append]
    obtain ⟨a, b, _, _, hspan, _, hrest⟩ := hreads.cons_inv (by simp [hscript])
    simp only [parseTokens, Reader.begin_of_script hscript, hlexed.takeWhile]
    rw [hscript] at hrest
    refine hlexed.placed hrest (fun joined => ⟨rfl, ⟨hspan.within.stop, by simp [Reader.start,
      Reader.past], ?_⟩, ?_⟩) hspan.stop_offset
    · exact (Row.nil hspan.within.nonneg).cons (allPlaced_frontmatter hspan.within) (le_refl _)
        (le_refl _)
    · simp [Joins, Reader.innermost, Reader.start, Reader.past]

end Markup
end Atoll
