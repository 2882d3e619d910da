import Atoll.Proofs.Canonical
import Atoll.Proofs.Conservation

/-!
# Every parsed tree is well formed

`parseTokens` takes any list of tokens, also one that no document gives: scripts and attribute names
in the middle, end marks that come early, a `>` out of nowhere.  Its trees are well formed all the
same, and this file says what that means.

* `Attr.Source` — the tokens that an attribute is read from, a name and maybe the value behind it.
* `Attr.Shaped`, `Node.Shaped`, `Fragment.WellFormed` — what holds of every attribute, of every node
  and of a whole tree.
* `Reader.Shaped` — the same of a reader: of its nodes, of its open elements and of the opening tag
  that it stands in.  **Every token keeps it** (`Reader.Shaped.read`).
* `wellFormed_parseTokens` — hence every tree is well formed, by induction on the tokens.
-/

set_option autoImplicit false

namespace Atoll
namespace Markup

variable {value? : Option Token} {ns : List Node} {h : Head} {later tokens : List Token}

/-! ## Well-formed trees -/

/-- An attribute is read from a name token and the value token behind it.  Without a value token,
none stands behind the name. -/
structure Attr.Source (tokens : List Token) (a : Attr) (name : Token) (value? : Option Token) :
    Prop where
  name_kind : name.kind = .attrName
  value_kind : ∀ value ∈ value?, value.kind = .attrValue
  /-- The tokens stand side by side. -/
  adjacent : ∃ rest, name :: (value?.toList ++ rest) <:+ tokens ∧
    (value? = none → ∀ t ∈ rest.head?, t.kind ≠ .attrValue)
  /-- The attribute says what the tokens say. -/
  eq : a = (attrOf name value?).1

/-- An attribute as it is read from tokens. -/
structure Attr.Shaped (tokens : List Token) (a : Attr) : Prop where
  /-- The directive is the one that the name asks for. -/
  directive : a.directive = directiveName? a.name
  /-- An attribute is an expression exactly when it has a value token that starts with a brace. -/
  expression : ∃ name value?, a.Source tokens name value? ∧
    (a.expression = true ↔ ∃ value ∈ value?, value.value.toList.head? = some '{')

namespace Node

/-- The tag of an element or a component. -/
def tag? : Node → Option String
  | .element tag _ _ _ _ => some tag
  | .component tag _ _ _ _ => some tag
  | _ => none

/-- Whether a node is a component. -/
def isComponent : Node → Bool
  | .component _ _ _ _ _ => true
  | _ => false

/-- Whether a node is an element or a component that closes itself. -/
def isSelfClosing : Node → Bool
  | .element _ _ _ selfClosing _ => selfClosing
  | .component _ _ _ selfClosing _ => selfClosing
  | _ => false

/-- Whether a node is raw markup or a fragment, which no token stands for. -/
def isForeign : Node → Bool
  | .raw _ _ => true
  | .fragment _ _ => true
  | _ => false

end Node

/-- No two texts stand side by side. -/
def TextsApart (nodes : List Node) : Prop :=
  nodes.IsChain fun m n => ¬(m.isText = true ∧ n.isText = true)

/-- A node below the root of a tree, apart from the nodes below it. -/
structure Node.Shaped (tokens : List Token) (n : Node) : Prop where
  foreign : n.isForeign = false
  texts : TextsApart n.children
  /-- A component is a node whose tag starts with an upper-case character. -/
  component : ∀ tag ∈ n.tag?, n.isComponent = true ↔ ∃ c ∈ tag.toList.head?, Text.isUpper c = true
  selfClosing : n.isSelfClosing = true → n.children = []
  void : ∀ tag ∈ n.tag?, isVoidElement tag = true → n.isComponent = false → n.children = []
  attrs : ∀ a ∈ n.attrs, a.Shaped tokens

/-- A tree that is read from tokens. -/
structure Fragment.WellFormed (tokens : List Token) (f : Fragment) : Prop where
  /-- A script can only be the first node. -/
  script : ∀ n ∈ (Node.walkAll f.children).tail, n.isFrontmatter = false
  texts : TextsApart f.children
  nodes : ∀ n ∈ Node.walkAll f.children, n.Shaped tokens

/-! ## Attributes -/

theorem attrOf_name (name : Token) (value? : Option Token) :
    (attrOf name value?).1.name = name.value := by
  unfold attrOf
  repeat' split
  all_goals rfl

theorem attrOf_directive (name : Token) (value? : Option Token) :
    (attrOf name value?).1.directive = directiveName? name.value := by
  unfold attrOf
  repeat' split
  all_goals rfl

/-- A brace value is one that starts with a brace. -/
theorem attrOf_expression (name : Token) (value? : Option Token) :
    (attrOf name value?).1.expression = true ↔
      ∃ value ∈ value?, value.value.toList.head? = some '{' := by
  rcases value? with _ | value
  · simp [attrOf]
  unfold attrOf
  dsimp only
  split
  · rename_i htext
    simp [htext]
  · rename_i cs htext
    simp [htext]
  · rename_i c cs hbrace htext
    have hc : c ≠ '{' := hbrace
    split
    all_goals simp [htext, hc]

theorem Attr.Source.shaped {a : Attr} {name : Token}
    (h : a.Source tokens name value?) : a.Shaped tokens where
  directive := by rw [h.eq, attrOf_directive, attrOf_name]
  expression := ⟨name, value?, h, by rw [h.eq, attrOf_expression]⟩

/-! ## Nodes -/

/-- A node with all nodes below it.  There is no script among them. -/
def Node.Grown (tokens : List Token) (n : Node) : Prop :=
  ∀ m ∈ n.walk, m.Shaped tokens ∧ m.isFrontmatter = false

/-- Siblings with all nodes below them, in either order. -/
structure Siblings (tokens : List Token) (nodes : List Node) : Prop where
  texts : TextsApart nodes
  grown : ∀ n ∈ nodes, n.Grown tokens

theorem TextsApart.reverse (h : TextsApart ns) : TextsApart ns.reverse := by
  rw [TextsApart, List.isChain_reverse]
  exact h.imp fun _ _ hne htexts => hne ⟨htexts.2, htexts.1⟩

namespace Siblings

variable {tokens : List Token} {ns : List Node}

theorem nil : Siblings tokens [] :=
  ⟨.nil, by simp⟩

theorem reverse (h : Siblings tokens ns) : Siblings tokens ns.reverse :=
  ⟨h.texts.reverse, fun n hn => h.grown n (List.mem_reverse.1 hn)⟩

theorem mem_walkAll (h : Siblings tokens ns) :
    ∀ n ∈ Node.walkAll ns, n.Shaped tokens ∧ n.isFrontmatter = false := by
  intro n hn
  obtain ⟨m, hm, hmem⟩ := Node.mem_walkAll.1 hn
  exact h.grown m hm n hmem

end Siblings

/-- A node without children and attributes. -/
theorem shaped_of_leaf (tokens : List Token) {n : Node} (hforeign : n.isForeign = false)
    (hchildren : n.children = []) (htag : n.tag? = none) (hattrs : n.attrs = []) :
    n.Shaped tokens where
  foreign := hforeign
  texts := by rw [hchildren]; exact .nil
  component := by simp [htag]
  selfClosing := fun _ => hchildren
  void := by simp [htag]
  attrs := by simp [hattrs]

theorem grown_text (tokens : List Token) (value : String) (span : Span) :
    (Node.text value span).Grown tokens := by
  intro m hm
  rw [List.mem_singleton.1 hm]
  exact ⟨shaped_of_leaf tokens rfl rfl rfl rfl, rfl⟩

theorem grown_expression (tokens : List Token) (code : String) (span : Span) (incomplete : Bool) :
    (Node.expression code span incomplete).Grown tokens := by
  intro m hm
  rw [List.mem_singleton.1 hm]
  exact ⟨shaped_of_leaf tokens rfl rfl rfl rfl, rfl⟩

/-- A node joins its siblings: two texts become one. -/
theorem Siblings.pushNode {tokens : List Token} {n : Node} {ns : List Node}
    (h : Siblings tokens ns) (hn : n.Grown tokens) : Siblings tokens (pushNode n ns) := by
  unfold Markup.pushNode
  split
  · rename_i value span before first rest
    obtain ⟨hnext, hrest⟩ := List.isChain_cons.1 h.texts
    refine ⟨List.isChain_cons.2 ⟨hnext, hrest⟩, List.forall_mem_cons.2 ⟨?_, ?_⟩⟩
    · exact grown_text tokens _ _
    · exact fun m hm => h.grown m (List.mem_cons_of_mem _ hm)
  · rename_i htexts
    refine ⟨List.isChain_cons.2 ⟨?_, h.texts⟩, List.forall_mem_cons.2 ⟨hn, h.grown⟩⟩
    rintro m hm ⟨hntext, hmtext⟩
    obtain ⟨rest, rfl⟩ : ∃ rest, ns = m :: rest := List.head?_eq_some_iff.1 hm
    cases n <;> cases m <;> simp [Node.isText] at hntext hmtext
    exact htexts _ _ _ _ _ rfl rfl

/-! ## Elements -/

/-- An opening tag with attributes that are read from tokens. -/
def Head.Shaped (tokens : List Token) (h : Head) : Prop :=
  ∀ a ∈ h.attrs, a.Shaped tokens

theorem isComponentName_iff (tag : String) :
    isComponentName tag = true ↔ ∃ c ∈ tag.toList.head?, Text.isUpper c = true := by
  rw [isComponentName, Text.startsUpper]
  split
  · rename_i c cs htag
    simp [htag]
  · rename_i htag
    simp [htag]

/-- An opening tag makes a node that is well formed, with no children if it closes itself or stands
alone. -/
theorem Head.Shaped.close (hattrs : h.Shaped tokens) {children : List Node}
    (hchildren : Siblings tokens children) {selfClosing : Bool}
    (hempty : selfClosing = true ∨ standsAlone h.token.value = true → children = [])
    (stop : Position) : (h.close children selfClosing stop).Grown tokens := by
  have hbelow : ∀ m ∈ Node.walkAll children, m.Shaped tokens ∧ m.isFrontmatter = false :=
    hchildren.mem_walkAll
  rw [Head.close]
  split
  · rename_i hname
    refine List.forall_mem_cons.2 ⟨⟨⟨rfl, hchildren.texts, ?_, ?_, ?_, hattrs⟩, rfl⟩, hbelow⟩
    · rintro tag ⟨⟩
      simpa [Node.isComponent] using (isComponentName_iff _).1 hname
    · exact fun hself => hempty (.inl hself)
    · simp [Node.isComponent]
  · rename_i hname
    refine List.forall_mem_cons.2 ⟨⟨⟨rfl, hchildren.texts, ?_, ?_, ?_, hattrs⟩, rfl⟩, hbelow⟩
    · rintro tag ⟨⟩
      rw [← isComponentName_iff]
      simpa [Node.isComponent] using hname
    · exact fun hself => hempty (.inl hself)
    · rintro tag ⟨⟩ hvoid -
      exact hempty (.inr (by simp [standsAlone, hvoid, hname]))

/-! ## The reader -/

/-- An open element: it does not stand alone, and all is well below it. -/
structure Frame.Shaped (tokens : List Token) (f : Frame) : Prop where
  head : f.head.Shaped tokens
  notAlone : standsAlone f.head.token.value = false
  children : Siblings tokens f.children

/-- The nodes at the root, last one first, with the script at the far end. -/
def RootShaped (tokens : List Token) (nodes : List Node) : Prop :=
  ∃ siblings script, nodes = siblings ++ script ∧ Siblings tokens siblings ∧
    (script = [] ∨ ∃ code span, script = [.frontmatter code span])

/-- Where a reader stands that has the given tokens before it.  Behind a name, these are the tokens
that follow the name. -/
def Place.Shaped (tokens after : List Token) : Place → Prop
  | .content => True
  | .tag h => h.Shaped tokens
  | .value h name => h.Shaped tokens ∧ name.kind = .attrName ∧ name :: after <:+ tokens

/-- A reader of which all is well, with the given tokens before it. -/
structure Reader.Shaped (tokens after : List Token) (r : Reader) : Prop where
  place : r.place.Shaped tokens after
  frames : ∀ f ∈ r.frames, f.Shaped tokens
  nodes : RootShaped tokens r.nodes

/-- A node joins the nodes at the root. -/
theorem RootShaped.pushNode {tokens : List Token} {n : Node} {ns : List Node}
    (h : RootShaped tokens ns) (hn : n.Grown tokens) : RootShaped tokens (pushNode n ns) := by
  obtain ⟨siblings, script, rfl, hsiblings, hscript⟩ := h
  refine ⟨Markup.pushNode n siblings, script, ?_, hsiblings.pushNode hn, hscript⟩
  -- a script is no text, so nothing is joined with it
  rcases siblings with _ | ⟨m, siblings⟩
  · rcases hscript with rfl | ⟨code, span, rfl⟩
    · simp
    · cases n <;> rfl
  · cases n <;> cases m <;> rfl

namespace Reader
namespace Shaped

variable {tokens after : List Token} {r : Reader}

/-- Between tags it does not matter which tokens are to come. -/
theorem ofContent {r s : Reader} (h : r.Shaped tokens after) (hplace : s.place = .content)
    (hframes : s.frames = r.frames) (hnodes : s.nodes = r.nodes) :
    s.Shaped tokens later where
  place := by rw [hplace]; trivial
  frames := by rw [hframes]; exact h.frames
  nodes := by rw [hnodes]; exact h.nodes

/-- A node joins what a reader has. -/
theorem add {n : Node} (h : r.Shaped tokens after) (hn : n.Grown tokens) :
    (r.add n).Shaped tokens after := by
  refine ⟨by rw [place_add]; exact h.place, ?_, ?_⟩
  · rw [Reader.add]
    split
    · rename_i f fs hframes
      have hall := h.frames
      rw [hframes, List.forall_mem_cons] at hall
      refine List.forall_mem_cons.2 ⟨?_, hall.2⟩
      exact ⟨hall.1.head, hall.1.notAlone, hall.1.children.pushNode hn⟩
    · exact h.frames
  · rw [Reader.add]
    split
    · exact h.nodes
    · exact h.nodes.pushNode hn

theorem closeFrame (h : r.Shaped tokens after) : r.closeFrame.Shaped tokens after := by
  rw [Reader.closeFrame]
  split
  · rename_i f fs hframes
    have hall := h.frames
    rw [hframes, List.forall_mem_cons] at hall
    have hout : ({ r with frames := fs } : Reader).Shaped tokens after := ⟨h.place, hall.2, h.nodes⟩
    refine hout.add (hall.1.head.close hall.1.children.reverse ?_ _)
    simp [hall.1.notAlone]
  · exact h

theorem closeTag (t : Token) (frames : List Frame) (h : r.Shaped tokens after) :
    (closeTag t frames r).Shaped tokens after := by
  induction frames generalizing r with
  | nil => exact ⟨h.place, h.frames, h.nodes⟩
  | cons f fs ih =>
    rw [Reader.closeTag]
    split
    · exact closeFrame ⟨h.place, h.frames, h.nodes⟩
    · exact ih (closeFrame ⟨h.place, h.frames, h.nodes⟩)

theorem closeAll (frames : List Frame) (h : r.Shaped tokens after) :
    (closeAll frames r).Shaped tokens after := by
  induction frames generalizing r with
  | nil => exact h
  | cons f fs ih => exact ih (closeFrame ⟨h.place, h.frames, h.nodes⟩)

/-! An opening tag is finished in one of three ways.  Its attributes are known to be well formed,
whatever the place says. -/

section

variable (hr : r.Shaped tokens after) (hh : h.Shaped tokens) (later : List Token)
include hr hh

theorem selfClose : (r.selfClose h).Shaped tokens later :=
  (hr.ofContent (s := { r with place := .content }) rfl rfl rfl).add
    (hh.close .nil (fun _ => rfl) _)

theorem openTag : (r.openTag h).Shaped tokens later := by
  rw [Reader.openTag]
  split
  · exact (hr.ofContent (s := { r with place := .content }) rfl rfl rfl).add
      (hh.close .nil (fun _ => rfl) _)
  · rename_i halone
    refine ⟨trivial, List.forall_mem_cons.2 ⟨⟨hh, ?_, .nil⟩, hr.frames⟩, hr.nodes⟩
    rw [Bool.not_eq_true, Bool.and_comm] at halone
    exact halone

theorem abandon : (r.abandon h).Shaped tokens later :=
  selfClose (r := r.note _ _) ⟨hr.place, hr.frames, hr.nodes⟩ hh later

end

theorem addAttribute {name : Token} (hh : h.Shaped tokens)
    (hattr : (attrOf name value?).1.Shaped tokens) (r : Reader) :
    (r.addAttribute h name value?).2.Shaped tokens :=
  List.forall_mem_append.2 ⟨hh, List.forall_mem_singleton.2 hattr⟩

/-! ## Reading a token -/

theorem readContent {r : Reader} (h : r.Shaped tokens after) (hplace : r.place = .content)
    (t : Token) (later : List Token) : (r.readContent t).Shaped tokens later := by
  have hr : r.Shaped tokens later := h.ofContent hplace rfl rfl
  rw [Reader.readContent]
  split
  · have hadd := hr.add (grown_text tokens t.value t.span)
    exact ⟨hadd.place, hadd.frames, hadd.nodes⟩
  · have hnote : (if t.incomplete then r.note .unclosedExpression t.span else r).Shaped
        tokens later := by
      split
      · exact ⟨hr.place, hr.frames, hr.nodes⟩
      · exact hr
    have hadd := hnote.add (grown_expression tokens (Text.strip t.value) t.span t.incomplete)
    exact ⟨hadd.place, hadd.frames, hadd.nodes⟩
  · exact ⟨by simp [Place.Shaped, Head.Shaped], hr.frames, hr.nodes⟩
  · split
    · exact hr.closeTag t r.frames
    · exact ⟨hr.place, hr.frames, hr.nodes⟩
  · exact ⟨hr.place, hr.frames, hr.nodes⟩

theorem readTag {t : Token} (hr : r.Shaped tokens after) (hh : h.Shaped tokens)
    (htokens : t :: later <:+ tokens) : (r.readTag h t).Shaped tokens later := by
  have hpast : (r.past t).Shaped tokens after := ⟨hr.place, hr.frames, hr.nodes⟩
  rw [Reader.readTag]
  split
  · rename_i ht
    exact ⟨⟨hh, ht, htokens⟩, hr.frames, hr.nodes⟩
  · exact hpast.selfClose hh later
  · split
    · exact hpast.openTag hh later
    · exact (hr.abandon hh later).readContent (place_add _ _) t later

/-- **Reading a token keeps everything well formed.**  An attribute is made when the token behind
its name is known, so that token decides whether it has a value. -/
theorem read {t : Token} (hr : r.Shaped tokens (t :: later))
    (htokens : t :: later <:+ tokens) : (r.read t).Shaped tokens later := by
  have hplaced := hr.place
  rw [Reader.read]
  split
  · rename_i hplace
    exact hr.readContent hplace t later
  · rename_i h hplace
    rw [hplace] at hplaced
    exact hr.readTag hplaced htokens
  · rename_i h name hplace
    rw [hplace] at hplaced
    obtain ⟨hh, hname, hadjacent⟩ := hplaced
    split
    · rename_i ht
      have hsource : (attrOf name (some t)).1.Source tokens name (some t) :=
        ⟨hname, by simpa using ht, ⟨later, hadjacent, by simp⟩, rfl⟩
      exact ⟨addAttribute hh hsource.shaped _, hr.frames, hr.nodes⟩
    · rename_i ht
      have hsource : (attrOf name none).1.Source tokens name none :=
        ⟨hname, by simp, ⟨t :: later, hadjacent, by simpa using ht⟩, rfl⟩
      have hadded : (r.addAttribute h name none).1.Shaped tokens (t :: later) :=
        ⟨hr.place, hr.frames, hr.nodes⟩
      exact hadded.readTag (addAttribute hh hsource.shaped r) htokens

/-- **Reading tokens keeps everything well formed**, by induction on the tokens. -/
theorem foldl {ts : List Token} (hr : r.Shaped tokens (ts ++ later))
    (htokens : ts ++ later <:+ tokens) : (ts.foldl Reader.read r).Shaped tokens later := by
  induction ts generalizing r with
  | nil => exact hr
  | cons t ts ih =>
    exact ih (hr.read htokens) ((List.suffix_cons t (ts ++ later)).trans htokens)

theorem endTag (hr : r.Shaped tokens later)
    (hlater : ∀ t ∈ later.head?, t.kind ≠ .attrValue) : r.endTag.Shaped tokens later := by
  have hplaced := hr.place
  rw [Reader.endTag]
  split
  · exact hr
  · rename_i h hplace
    rw [hplace] at hplaced
    exact hr.abandon hplaced later
  · rename_i h name hplace
    rw [hplace] at hplaced
    obtain ⟨hh, hname, hadjacent⟩ := hplaced
    have hsource : (attrOf name none).1.Source tokens name none :=
      ⟨hname, by simp, ⟨later, hadjacent, fun _ => hlater⟩, rfl⟩
    have hadded : (r.addAttribute h name none).1.Shaped tokens later :=
      ⟨hr.place, hr.frames, hr.nodes⟩
    exact hadded.abandon (addAttribute hh hsource.shaped r) later

theorem finish (hr : r.Shaped tokens later)
    (hlater : ∀ t ∈ later.head?, t.kind ≠ .attrValue) : r.finish.Shaped tokens later :=
  (hr.endTag hlater).closeAll _

end Shaped

/-- A reader starts out well formed, before tokens that the list ends in. -/
theorem shaped_begin (tokens : List Token) :
    (begin tokens).1.Shaped tokens (begin tokens).2 ∧ (begin tokens).2 <:+ tokens := by
  have hempty : RootShaped tokens [] := ⟨[], [], rfl, .nil, .inl rfl⟩
  rcases tokens with _ | ⟨t, ts⟩
  · exact ⟨⟨trivial, by simp [begin, start], hempty⟩, List.suffix_rfl⟩
  by_cases ht : t.kind = .frontmatter
  · rw [begin_of_script ht]
    exact ⟨⟨trivial, by simp [start, past], ⟨[], _, rfl, .nil, .inr ⟨_, _, rfl⟩⟩⟩,
      List.suffix_cons t ts⟩
  · rw [begin_of_ne (by simpa using ht)]
    exact ⟨⟨trivial, by simp [start], hempty⟩, List.suffix_rfl⟩

end Reader

/-! ## The tree -/

/-- The nodes at the root make a well-formed tree, once they are put into their order. -/
theorem RootShaped.wellFormed (h : RootShaped tokens ns)
    (span : Span) : Fragment.WellFormed tokens ⟨ns.reverse, span⟩ := by
  obtain ⟨siblings, script, rfl, hsiblings, hscript⟩ := h
  have hordered := hsiblings.reverse
  rcases hscript with rfl | ⟨code, place, rfl⟩
  · rw [List.append_nil]
    exact ⟨fun n hn => (hordered.mem_walkAll n (List.mem_of_mem_tail hn)).2, hordered.texts,
      fun n hn => (hordered.mem_walkAll n hn).1⟩
  · rw [List.reverse_append, List.reverse_singleton, List.singleton_append]
    refine ⟨fun n hn => (hordered.mem_walkAll n hn).2, ?_, ?_⟩
    · exact List.isChain_cons.2 ⟨by simp [Node.isText], hordered.texts⟩
    · refine List.forall_mem_cons.2 ⟨?_, fun n hn => (hordered.mem_walkAll n hn).1⟩
      exact shaped_of_leaf tokens rfl rfl rfl rfl

/-- **The tree of any list of tokens is well formed.**  It has a script only as its first node, no
raw markup and no fragment in it and nowhere two texts side by side; components are the tags that
start with an upper-case character; what closes itself or stands alone has no children; and every
attribute has the directive of its name and is an expression exactly when it has a value token that
starts with a brace. -/
theorem wellFormed_parseTokens (tokens : List Token) :
    (parseTokens tokens).tree.WellFormed tokens := by
  obtain ⟨hbegin, hsuffix⟩ := Reader.shaped_begin tokens
  rw [parseTokens]
  generalize Reader.begin tokens = start at hbegin hsuffix
  obtain ⟨r, rest⟩ := start
  -- the reader stops at the first end mark, and an end mark is no value
  have hcut := List.takeWhile_append_dropWhile (p := fun t : Token => t.kind != .eof) (l := rest)
  rw [← hcut] at hbegin hsuffix
  refine ((hbegin.foldl hsuffix).finish ?_).nodes.wellFormed _
  intro t ht hvalue
  have hstop := List.head?_dropWhile_not (fun t : Token => t.kind != .eof) rest
  rw [ht] at hstop
  simp [hvalue] at hstop

end Markup
end Atoll
