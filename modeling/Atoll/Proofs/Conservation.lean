import Atoll.Proofs.Grammar
import Mathlib.Data.List.Forall2

/-!
# Parsing loses and repeats nothing

Whatever is wrong with a list of tokens, all that they say is in the tree, once and in their order:
the reader closes elements early, passes over tokens and joins texts, but it never drops a text, a
placeholder or a tag.

* `Piece`, `Node.pieces` — what the nodes of a tree say, in document order.
* `Piece.ReadFrom`, `AreReadFrom` — a piece comes from a token, a text from one or more of them.
* `Reader.pieces` — what a reader has taken in, its open elements included.
* `Reader.takes_read` — **a token that says something is taken in behind everything else, and any
  other token changes nothing.**
* `parseTokens_conserves` — hence the nodes of the tree are the tokens, piece by piece.
-/

set_option autoImplicit false

namespace Atoll
namespace Markup

variable {t : Token} {ts : List Token} {r : Reader}

/-! ## Pieces -/

/-- What a node says, apart from the nodes below it. -/
inductive Piece where
  | script (code : String)
  | text (value : String)
  | placeholder (code : String) (incomplete : Bool)
  | tag (name : String)
  /-- What no token says: raw markup, and fragments inside a tree. -/
  | other
  deriving DecidableEq, Repr

variable {qs ps : List Piece} {p : Piece}

/-- What a node says. -/
def Node.piece : Node → Piece
  | .text value _ => .text value
  | .expression code _ incomplete => .placeholder code incomplete
  | .raw _ _ => .other
  | .frontmatter code _ => .script code
  | .element tag _ _ _ _ => .tag tag
  | .component tag _ _ _ _ => .tag tag
  | .fragment _ _ => .other

/-- What nodes and all nodes below them say, in document order. -/
def Node.pieces (nodes : List Node) : List Piece :=
  (Node.walkAll nodes).map Node.piece

/-- Whether a token says something wherever it stands.  Scripts do so only at the top. -/
def Token.isContent (t : Token) : Bool :=
  t.kind == .text || t.kind == .expression || t.kind == .tagOpen

/-- The tokens that a piece is read from: one, or for a text one or more. -/
inductive Piece.ReadFrom : Piece → List Token → Prop where
  | script {t : Token} (ht : t.kind = .frontmatter) : ReadFrom (.script t.value) [t]
  | text {ts : List Token} (hne : ts ≠ []) (hts : ∀ t ∈ ts, t.kind = .text) :
      ReadFrom (.text (String.join (ts.map Token.value))) ts
  | placeholder {t : Token} (ht : t.kind = .expression) :
      ReadFrom (.placeholder (Text.strip t.value) t.incomplete) [t]
  | tag {t : Token} (ht : t.kind = .tagOpen) : ReadFrom (.tag t.value) [t]

/-- The pieces are read from the tokens, all of them and in their order. -/
def AreReadFrom (ps : List Piece) (ts : List Token) : Prop :=
  ∃ groups : List (List Token), groups.flatten = ts ∧ List.Forall₂ Piece.ReadFrom ps groups

/-- Another piece behind some pieces.  A text may go together with the text before it. -/
inductive Gets : List Piece → Piece → List Piece → Prop where
  | behind (ps : List Piece) (p : Piece) : Gets ps p (ps ++ [p])
  | joined (ps : List Piece) (a b : String) :
      Gets (ps ++ [.text a]) (.text b) (ps ++ [.text (a ++ b)])

theorem Gets.prepend (h : Gets ps p qs) (lead : List Piece) : Gets (lead ++ ps) p (lead ++ qs) := by
  cases h with
  | behind =>
    rw [← List.append_assoc]
    exact .behind _ p
  | joined ps a b =>
    rw [← List.append_assoc, ← List.append_assoc]
    exact .joined _ a b

theorem Piece.ReadFrom.ofText (ht : t.kind = .text) : ReadFrom (.text t.value) [t] := by
  have h := ReadFrom.text (List.cons_ne_nil t []) (by simpa using ht)
  simpa [String.join] using h

/-- A text that is read from one token is its value. -/
theorem Piece.ReadFrom.value_eq {s : String} (h : ReadFrom (.text s) [t]) :
    t.kind = .text ∧ s = t.value := by
  cases h with
  | text _ hts => exact ⟨hts t List.mem_cons_self, by simp [String.join]⟩

/-- Pieces that are read from groups of tokens are cut where the groups are. -/
theorem exists_of_forall₂_concat {groups : List (List Token)}
    (h : List.Forall₂ Piece.ReadFrom (ps ++ [p]) groups) :
    ∃ front last, groups = front ++ [last] ∧ List.Forall₂ Piece.ReadFrom ps front ∧
      p.ReadFrom last := by
  have hfront := (List.forall₂_take_append _ _ _ h.flip).flip
  have hlast := (List.forall₂_drop_append _ _ _ h.flip).flip
  obtain ⟨last, rest, hp, hnil, hdrop⟩ := List.forall₂_cons_left_iff.1 hlast
  rw [List.forall₂_nil_left_iff.1 hnil] at hdrop
  exact ⟨_, last, by rw [← hdrop, List.take_append_drop], hfront, hp⟩

/-- Getting a piece is reading another token. -/
theorem AreReadFrom.gets {ps qs : List Piece} {ts : List Token} {p : Piece} {t : Token}
    (h : AreReadFrom ps ts) (hgets : Gets ps p qs) (hp : p.ReadFrom [t]) :
    AreReadFrom qs (ts ++ [t]) := by
  obtain ⟨groups, rfl, hgroups⟩ := h
  cases hgets with
  | behind => exact ⟨groups ++ [[t]], by simp, List.rel_append hgroups (.cons hp .nil)⟩
  | joined ps a b =>
    -- the group of the last text gets the token
    obtain ⟨front, last, rfl, hfront, hlast⟩ := exists_of_forall₂_concat hgroups
    obtain ⟨ht, rfl⟩ := hp.value_eq
    cases hlast with
    | text hne hlast =>
      have hjoined : Piece.ReadFrom (.text (String.join ((last ++ [t]).map Token.value)))
          (last ++ [t]) := .text (by simp) (List.forall_mem_append.2 ⟨hlast, by simpa using ht⟩)
      refine ⟨front ++ [last ++ [t]], by simp, List.rel_append hfront (.cons ?_ .nil)⟩
      simpa [String.join_append, String.join] using hjoined

/-- What becomes of pieces when a token is read: one that says something adds its piece, and any
other changes nothing. -/
def Takes (ps : List Piece) (t : Token) (qs : List Piece) : Prop :=
  if t.isContent then ∃ p : Piece, p.ReadFrom [t] ∧ Gets ps p qs else qs = ps

theorem Takes.ofNone (ht : t.isContent = false) (ps : List Piece) : Takes ps t ps := by
  simp [Takes, ht]

theorem Takes.ofGets (ht : t.isContent = true) (hp : p.ReadFrom [t])
    (h : Gets ps p qs) : Takes ps t qs := by
  rw [Takes, if_pos ht]
  exact ⟨p, hp, h⟩

theorem AreReadFrom.takes (h : AreReadFrom ps ts) (ht : Takes ps t qs) :
    AreReadFrom qs (ts ++ [t].filter Token.isContent) := by
  rw [Takes] at ht
  split at ht
  · rename_i hcontent
    obtain ⟨p, hp, hgets⟩ := ht
    simpa [hcontent] using h.gets hgets hp
  · rename_i hcontent
    subst ht
    simpa [hcontent] using h

/-! ## Nodes -/

namespace Node

theorem walkAll_append (ns ms : List Node) : walkAll (ns ++ ms) = walkAll ns ++ walkAll ms := by
  induction ns with
  | nil => rfl
  | cons n ns ih => rw [List.cons_append, walkAll, walkAll, ih, List.append_assoc]

theorem pieces_append (ns ms : List Node) : pieces (ns ++ ms) = pieces ns ++ pieces ms := by
  rw [pieces, walkAll_append, List.map_append, pieces, pieces]

/-- A text at the end of a list is the last piece of the list. -/
theorem pieces_reverse_text (value : String) (span : Span) (ns : List Node) :
    pieces (.text value span :: ns).reverse = pieces ns.reverse ++ [.text value] := by
  rw [List.reverse_cons, pieces_append]
  rfl

end Node

theorem pieces_pushNode {n : Node} (hn : ∀ value span, n ≠ .text value span) (ns : List Node) :
    Node.pieces (pushNode n ns).reverse = Node.pieces ns.reverse ++ Node.pieces [n] := by
  have hpush : pushNode n ns = n :: ns := by
    fun_cases pushNode n ns with
    | case1 value span => exact absurd rfl (hn value span)
    | case2 => rfl
  rw [hpush, List.reverse_cons, Node.pieces_append]

/-- A text is a piece of its own, or goes together with the text before it. -/
theorem gets_pushNode_text (value : String) (span : Span) (ns : List Node) :
    Gets (Node.pieces ns.reverse) (.text value)
      (Node.pieces (pushNode (.text value span) ns).reverse) := by
  unfold pushNode
  split
  · rename_i before first rest hnode
    cases hnode
    rw [Node.pieces_reverse_text, Node.pieces_reverse_text]
    exact .joined _ before value
  · rw [Node.pieces_reverse_text]
    exact .behind _ _

theorem Head.pieces_close (h : Head) (children : List Node) (selfClosing : Bool) (stop : Position) :
    Node.pieces [h.close children selfClosing stop] =
      .tag h.token.value :: Node.pieces children := by
  rw [Head.close]
  split
  · simp [Node.pieces, Node.walkAll, Node.walk, Node.piece]
  · simp [Node.pieces, Node.walkAll, Node.walk, Node.piece]

theorem Head.close_ne_text (h : Head) (children : List Node) (selfClosing : Bool)
    (stop : Position) (value : String) (span : Span) :
    h.close children selfClosing stop ≠ .text value span := by
  rw [Head.close]
  split
  · rintro ⟨⟩
  · rintro ⟨⟩

/-! ## The reader -/

/-- What open elements say, given from the innermost on. -/
def Frame.pieces : List Frame → List Piece
  | [] => []
  | f :: fs => pieces fs ++ .tag f.head.token.value :: Node.pieces f.children.reverse

/-- What the opening tag says that a reader stands in. -/
def Place.pieces : Place → List Piece
  | .content => []
  | .tag h => [.tag h.token.value]
  | .value h _ => [.tag h.token.value]

namespace Reader

/-- What a reader has put into nodes and open elements. -/
def settled (r : Reader) : List Piece :=
  Node.pieces r.nodes.reverse ++ Frame.pieces r.frames

/-- What a reader has taken in. -/
def pieces (r : Reader) : List Piece :=
  r.settled ++ r.place.pieces

theorem pieces_content (h : r.place = .content) : r.pieces = r.settled := by
  rw [pieces, h, Place.pieces, List.append_nil]

theorem settled_add (r : Reader) {n : Node} (hn : ∀ value span, n ≠ .text value span) :
    (r.add n).settled = r.settled ++ Node.pieces [n] := by
  rw [add]
  split
  · rename_i f fs hframes
    simp [settled, hframes, Frame.pieces, pieces_pushNode hn]
  · rename_i hframes
    simp [settled, hframes, Frame.pieces, pieces_pushNode hn]

theorem gets_add_text (r : Reader) (value : String) (span : Span) :
    Gets r.settled (.text value) (r.add (.text value span)).settled := by
  rw [add]
  split
  · rename_i f fs hframes
    have hgets := (gets_pushNode_text value span f.children).prepend
      (Node.pieces r.nodes.reverse ++ (Frame.pieces fs ++ [.tag f.head.token.value]))
    simpa [settled, hframes, Frame.pieces] using hgets
  · rename_i hframes
    simpa [settled, hframes, Frame.pieces] using gets_pushNode_text value span r.nodes

/-! Closing an element makes a node of it and says nothing new. -/

theorem settled_closeFrame (r : Reader) : r.closeFrame.settled = r.settled := by
  rw [closeFrame]
  split
  · rename_i f fs hframes
    rw [settled_add _ (f.head.close_ne_text _ _ _), Head.pieces_close]
    simp [settled, hframes, Frame.pieces]
  · rfl

theorem place_closeFrame (r : Reader) : r.closeFrame.place = r.place := by
  rw [closeFrame]
  split
  · exact place_add _ _
  · rfl

theorem pieces_closeFrame (r : Reader) : r.closeFrame.pieces = r.pieces := by
  rw [pieces, settled_closeFrame, place_closeFrame, pieces]

theorem pieces_closeTag (t : Token) (frames : List Frame) (r : Reader) :
    (closeTag t frames r).pieces = r.pieces := by
  induction frames generalizing r with
  | nil => rfl
  | cons f fs ih =>
    rw [closeTag]
    split
    · exact pieces_closeFrame _
    · rw [ih, pieces_closeFrame]
      rfl

theorem pieces_closeAll (frames : List Frame) (r : Reader) :
    (closeAll frames r).pieces = r.pieces := by
  induction frames generalizing r with
  | nil => rfl
  | cons f fs ih =>
    rw [closeAll, ih, pieces_closeFrame]
    rfl

theorem length_frames_add (r : Reader) (n : Node) : (r.add n).frames.length = r.frames.length := by
  rw [add]
  split
  · rename_i f fs hframes
    simp [hframes]
  · rfl

theorem frames_closeAll (frames : List Frame) (r : Reader) (h : frames.length = r.frames.length) :
    (closeAll frames r).frames = [] := by
  induction frames generalizing r with
  | nil => exact List.length_eq_zero_iff.1 h.symm
  | cons f fs ih =>
    refine ih _ ?_
    obtain ⟨g, gs, hframes⟩ := List.exists_cons_of_length_eq_add_one h.symm
    have hclose : (r.note (.unclosedTag f.head.token.value) f.head.token.span).closeFrame =
        ({ r.note (.unclosedTag f.head.token.value) f.head.token.span with frames := gs }).add
          (g.head.close g.children.reverse false r.last) := by
      simp [closeFrame, note, hframes]
    rw [hclose, length_frames_add]
    simpa [hframes] using h

/-! ## Opening tags -/

theorem pieces_selfClose (r : Reader) (h : Head) :
    (r.selfClose h).pieces = r.settled ++ [.tag h.token.value] ∧
      (r.selfClose h).place = .content := by
  have hplace : (r.selfClose h).place = .content := place_add _ _
  refine ⟨?_, hplace⟩
  rw [pieces_content hplace, selfClose, settled_add _ (h.close_ne_text _ _ _), Head.pieces_close]
  rfl

theorem pieces_openTag (r : Reader) (h : Head) :
    (r.openTag h).pieces = r.settled ++ [.tag h.token.value] := by
  rw [openTag]
  split
  · have hplace : (({ r with place := .content }).add (h.close [] false r.last)).place = .content :=
      place_add _ _
    rw [pieces_content hplace, settled_add _ (h.close_ne_text _ _ _), Head.pieces_close]
    rfl
  · simp [pieces, settled, Place.pieces, Frame.pieces, Node.pieces, Node.walkAll]

theorem pieces_abandon (r : Reader) (h : Head) :
    (r.abandon h).pieces = r.settled ++ [.tag h.token.value] ∧ (r.abandon h).place = .content :=
  pieces_selfClose _ h

/-! ## Reading a token -/

theorem takes_readContent (hr : r.place = .content) (t : Token) :
    Takes r.pieces t (r.readContent t).pieces := by
  rw [readContent]
  split
  · rename_i ht
    refine .ofGets (by simp [Token.isContent, ht]) (.ofText ht) ?_
    have hplace : ((r.add (.text t.value t.span)).past t).place = .content :=
      (place_add _ _).trans hr
    rw [pieces_content hr, pieces_content hplace]
    exact r.gets_add_text t.value t.span
  · rename_i ht
    refine .ofGets (by simp [Token.isContent, ht]) (.placeholder ht) ?_
    -- a complaint changes neither the place nor what was taken in
    obtain ⟨s, hs, hsettled, hplace⟩ : ∃ s : Reader,
        (if t.incomplete then r.note .unclosedExpression t.span else r) = s ∧
          s.settled = r.settled ∧ s.place = .content := by
      split
      · exact ⟨_, rfl, rfl, hr⟩
      · exact ⟨_, rfl, rfl, hr⟩
    dsimp only
    rw [hs, pieces_content hr, ← hsettled]
    have hplace' : ((s.add (.expression (Text.strip t.value) t.span t.incomplete)).past t).place =
        .content := (place_add _ _).trans hplace
    rw [pieces_content hplace']
    have hadd : ((s.add (.expression (Text.strip t.value) t.span t.incomplete)).past t).settled =
        s.settled ++ [.placeholder (Text.strip t.value) t.incomplete] :=
      s.settled_add (by rintro value span ⟨⟩)
    rw [hadd]
    exact .behind _ _
  · rename_i ht
    refine .ofGets (by simp [Token.isContent, ht]) (.tag ht) ?_
    rw [pieces_content hr]
    exact .behind _ _
  · rename_i ht
    have hpieces : (if t.isClosingTag then closeTag t r.frames r else r.past t).pieces =
        r.pieces := by
      split
      · exact pieces_closeTag t r.frames r
      · rfl
    rw [hpieces]
    exact .ofNone (by simp [Token.isContent, ht]) _
  · rename_i htext hexpression hopen _
    refine .ofNone ?_ _
    simpa [Token.isContent] using ⟨⟨htext, hexpression⟩, hopen⟩

theorem takes_readTag (r : Reader) (h : Head) (t : Token) :
    Takes (r.settled ++ [.tag h.token.value]) t (r.readTag h t).pieces := by
  rw [readTag]
  split
  · rename_i ht
    exact .ofNone (by simp [Token.isContent, ht]) _
  · rename_i ht
    rw [((r.past t).pieces_selfClose h).1]
    exact .ofNone (by simp [Token.isContent, ht]) _
  · split
    · rename_i hend
      rw [(r.past t).pieces_openTag h]
      exact .ofNone (by simp [Token.isContent, t.kind_of_endsOpenTag hend]) _
    · obtain ⟨hpieces, hplace⟩ := r.pieces_abandon h
      rw [← hpieces]
      exact takes_readContent hplace t

/-- **Reading a token takes in what it says.** -/
theorem takes_read (r : Reader) (t : Token) : Takes r.pieces t (r.read t).pieces := by
  rw [read]
  split
  · rename_i hplace
    exact takes_readContent hplace t
  · rename_i h hplace
    rw [pieces, hplace]
    exact r.takes_readTag h t
  · rename_i h name hplace
    rw [pieces, hplace]
    split
    · rename_i ht
      exact .ofNone (by simp [Token.isContent, eq_of_beq ht]) _
    · exact (r.addAttribute h name none).1.takes_readTag (r.addAttribute h name none).2 t

/-- **Reading tokens takes in what they say**, by induction on the tokens. -/
theorem areReadFrom_foldl {before : List Token} (h : AreReadFrom r.pieces before)
    (ts : List Token) :
    AreReadFrom (ts.foldl read r).pieces (before ++ ts.filter Token.isContent) := by
  induction ts generalizing r before with
  | nil => simpa using h
  | cons t ts ih =>
    have hstep := ih (h.takes (r.takes_read t))
    rwa [List.append_assoc, ← List.filter_append] at hstep

theorem pieces_endTag (r : Reader) : r.endTag.pieces = r.pieces ∧ r.endTag.place = .content := by
  rw [endTag]
  split
  · rename_i hplace
    exact ⟨rfl, hplace⟩
  · rename_i h hplace
    have hpieces : r.pieces = r.settled ++ [.tag h.token.value] := by rw [pieces, hplace]; rfl
    rw [hpieces]
    exact r.pieces_abandon h
  · rename_i h name hplace
    have hpieces : r.pieces = r.settled ++ [.tag h.token.value] := by rw [pieces, hplace]; rfl
    rw [hpieces]
    exact (r.addAttribute h name none).1.pieces_abandon (r.addAttribute h name none).2

theorem place_closeAll (frames : List Frame) (r : Reader) :
    (closeAll frames r).place = r.place := by
  induction frames generalizing r with
  | nil => rfl
  | cons f fs ih =>
    rw [closeAll, ih, place_closeFrame]
    rfl

/-- At the end all that was taken in is in the nodes. -/
theorem pieces_finish (r : Reader) : Node.pieces r.finish.nodes.reverse = r.pieces := by
  obtain ⟨hpieces, hplace⟩ := r.pieces_endTag
  have hframes : r.finish.frames = [] := frames_closeAll _ r.endTag rfl
  have hend : r.finish.place = .content := (place_closeAll _ _).trans hplace
  calc Node.pieces r.finish.nodes.reverse
      = r.finish.pieces := by simp [pieces_content hend, settled, hframes, Frame.pieces]
    _ = r.endTag.pieces := pieces_closeAll _ _
    _ = r.pieces := hpieces

end Reader

/-! ## The tree -/

/-- The script among tokens: the first of them, if it is one. -/
def scriptTokens (tokens : List Token) : List Token :=
  tokens.head?.toList.filter fun t => t.kind == .frontmatter

/-- What a reader begins with is read from the script. -/
theorem areReadFrom_begin (tokens : List Token) :
    let read := tokens.takeWhile fun t => t.kind != .eof
    AreReadFrom (Reader.begin tokens).1.pieces (scriptTokens read) ∧
      ((Reader.begin tokens).2.takeWhile fun t => t.kind != .eof).filter Token.isContent =
        read.filter Token.isContent := by
  have hnone : AreReadFrom [] [] := ⟨[], rfl, .nil⟩
  rcases tokens with _ | ⟨t, ts⟩
  · exact ⟨hnone, rfl⟩
  by_cases ht : t.kind = .frontmatter
  · rw [Reader.begin_of_script ht]
    refine ⟨⟨[[t]], ?_, .cons (.script ht) .nil⟩, ?_⟩
    · simp [scriptTokens, ht]
    · simp [Token.isContent, ht]
  · have hread : scriptTokens ((t :: ts).takeWhile fun t => t.kind != .eof) = [] := by
      by_cases heof : t.kind = .eof
      · simp [scriptTokens, heof]
      · simpa [scriptTokens, heof] using ht
    rw [Reader.begin_of_ne (by simpa using ht)]
    dsimp only
    rw [hread]
    exact ⟨hnone, rfl⟩

namespace Piece

/-- The text of a piece. -/
def text? : Piece → Option String
  | .text value => some value
  | _ => none

/-- The code of a placeholder, and whether it is incomplete. -/
def placeholder? : Piece → Option (String × Bool)
  | .placeholder code incomplete => some (code, incomplete)
  | _ => none

/-- The name of a tag. -/
def tag? : Piece → Option String
  | .tag name => some name
  | _ => none

end Piece

/-- What is collected from pieces is collected from the tokens they are read from. -/
theorem AreReadFrom.flatMap_eq {α : Type} (h : AreReadFrom ps ts) {f : Piece → List α}
    {g : Token → List α}
    (hfg : ∀ p us, p.ReadFrom us → f p = us.flatMap g) : ps.flatMap f = ts.flatMap g := by
  obtain ⟨groups, rfl, hgroups⟩ := h
  induction hgroups with
  | nil => rfl
  | cons hp _ ih =>
    rw [List.flatMap_cons, ih, hfg _ _ hp, List.flatten_cons, List.flatMap_append]

theorem map_filter_eq_flatMap {α β : Type} (test : α → Bool) (f : α → β) (xs : List α) :
    (xs.filter test).map f = xs.flatMap fun x => if test x then [f x] else [] := by
  induction xs with
  | nil => rfl
  | cons x xs ih => cases h : test x <;> simp [h, ih]

theorem AreReadFrom.texts (h : AreReadFrom ps ts) :
    String.join (ps.filterMap Piece.text?) =
      String.join ((ts.filter fun t => t.kind == .text).map Token.value) := by
  rw [← String.toList_inj, String.toList_join, String.toList_join,
    List.filterMap_eq_flatMap_toList, map_filter_eq_flatMap, List.flatMap_assoc, List.flatMap_assoc]
  refine h.flatMap_eq fun p us hp => ?_
  cases hp with
  | script ht => simp [Piece.text?, ht]
  | text _ hts =>
    have hvalues : us.flatMap (fun t => (if t.kind == .text then [t.value] else []).flatMap
        String.toList) = us.flatMap fun t => t.value.toList :=
      List.flatMap_congr fun t ht => by simp [hts t ht]
    rw [hvalues]
    simp [Piece.text?, String.toList_join, List.flatMap_map]
  | placeholder ht => simp [Piece.text?, ht]
  | tag ht => simp [Piece.text?, ht]

theorem AreReadFrom.placeholders (h : AreReadFrom ps ts) :
    ps.filterMap Piece.placeholder? =
      (ts.filter fun t => t.kind == .expression).map
        fun t => (Text.strip t.value, t.incomplete) := by
  rw [List.filterMap_eq_flatMap_toList, map_filter_eq_flatMap]
  refine h.flatMap_eq fun p us hp => ?_
  cases hp with
  | script ht => simp [Piece.placeholder?, ht]
  | text _ hts => simpa [Piece.placeholder?] using fun t ht => by simp [hts t ht]
  | placeholder ht => simp [Piece.placeholder?, ht]
  | tag ht => simp [Piece.placeholder?, ht]

theorem AreReadFrom.tags (h : AreReadFrom ps ts) :
    ps.filterMap Piece.tag? = (ts.filter fun t => t.kind == .tagOpen).map Token.value := by
  rw [List.filterMap_eq_flatMap_toList, map_filter_eq_flatMap]
  refine h.flatMap_eq fun p us hp => ?_
  cases hp with
  | script ht => simp [Piece.tag?, ht]
  | text _ hts => simpa [Piece.tag?] using fun t ht => by simp [hts t ht]
  | placeholder ht => simp [Piece.tag?, ht]
  | tag ht => simp [Piece.tag?, ht]

/-- The nodes of the tree are read from the script and the tokens that say something. -/
theorem areReadFrom_parseTokens (tokens : List Token) :
    let read := tokens.takeWhile fun t => t.kind != .eof
    AreReadFrom (Node.pieces (parseTokens tokens).tree.children)
      (scriptTokens read ++ read.filter Token.isContent) := by
  intro read
  obtain ⟨hbegin, hrest⟩ := areReadFrom_begin tokens
  have hread := Reader.areReadFrom_foldl hbegin
    ((Reader.begin tokens).2.takeWhile fun t => t.kind != .eof)
  rwa [hrest, ← Reader.pieces_finish] at hread

/-- **Parsing loses and repeats nothing.**  What the nodes below the root say in document order is
what the tokens up to the first end mark say, in their order: the script if the first token is one,
and every text, placeholder and opening tag, each once, adjacent texts together.  So the texts of
the tree one behind the other are the texts of the tokens, its placeholders are those of the tokens,
and its elements and components have the names of the opening tags. -/
theorem parseTokens_conserves (tokens : List Token) :
    let read := tokens.takeWhile fun t => t.kind != .eof
    let said := Node.pieces (parseTokens tokens).tree.children
    AreReadFrom said (scriptTokens read ++ read.filter Token.isContent) ∧
      String.join (said.filterMap Piece.text?) =
        String.join ((read.filter fun t => t.kind == .text).map Token.value) ∧
      said.filterMap Piece.placeholder? =
        (read.filter fun t => t.kind == .expression).map
          (fun t => (Text.strip t.value, t.incomplete)) ∧
      said.filterMap Piece.tag? = (read.filter fun t => t.kind == .tagOpen).map Token.value := by
  intro read said
  have hsaid := areReadFrom_parseTokens tokens
  -- scripts are neither texts nor placeholders nor tags
  have hfilter : ∀ kind : TokenKind, kind = .text ∨ kind = .expression ∨ kind = .tagOpen →
      (scriptTokens read ++ read.filter Token.isContent).filter (fun t => t.kind == kind) =
        read.filter fun t => t.kind == kind := by
    intro kind hkind
    rw [List.filter_append, scriptTokens, List.filter_filter, List.filter_filter]
    have hscript : ∀ t : Token, (t.kind == kind && t.kind == .frontmatter) = false := by
      intro t
      rcases hkind with rfl | rfl | rfl <;> cases t.kind <;> rfl
    have hcontent : ∀ t : Token, (t.kind == kind && t.isContent) = (t.kind == kind) := by
      intro t
      rcases hkind with rfl | rfl | rfl <;> simp [Token.isContent] <;> cases t.kind <;> simp
    simp only [hscript, hcontent, List.filter_false, List.nil_append]
  refine ⟨hsaid, ?_, ?_, ?_⟩
  · rw [hsaid.texts, hfilter _ (.inl rfl)]
  · rw [hsaid.placeholders, hfilter _ (.inr (.inl rfl))]
  · rw [hsaid.tags, hfilter _ (.inr (.inr rfl))]

end Markup
end Atoll
