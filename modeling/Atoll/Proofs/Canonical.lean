import Atoll.Proofs.Emission
import Mathlib

/-!
# Canonical trees and their markup

A tree of elements and texts can be written in many ways, and many trees cannot be written so that
they are read back: two adjacent texts become one, a text with a brace starts a placeholder.  A
canonical tree is one that can.  This file says which trees these are, and what the builder writes
for them when it does not escape texts.

* `Node.isCanonical`, `Fragment.isCanonical` — canonical trees, as a test.
* `Node.unplaced`, `Node.escaped` — a tree without its places, and with its attribute values the way
  they stand between quotes.
* `Canonical` — the same as a predicate, to do induction on.
* `Node.written` — what is written for a node; `Canonical.toText_emitAll` shows that the builder
  writes just that.
* `Canonical.unbroken` — no Windows line end comes up where two pieces meet.
-/

set_option autoImplicit false

namespace Atoll
namespace Markup

open Text

variable {s : List Char} {ns : List Node}

/-! ## Canonical trees -/

/-- The characters of a canonical tag: lower-case letters, digits and the hyphen. -/
def isCanonicalTagChar (c : Char) : Bool :=
  c.isLower || c.isDigit || c == '-'

/-- A tag in lower case whose content is read for tags and placeholders. -/
def isCanonicalTag (tag : String) : Bool :=
  !tag.toList.isEmpty && tag.toList.all isCanonicalTagChar && !rawTextElements.contains tag

/-- Whether there is a Windows line end in a text. -/
def hasWindowsLineEnd (s : List Char) : Bool :=
  occursIn "\r\n".toList s

/-- A text in which neither a tag nor a placeholder starts. -/
def isCanonicalText (s : String) : Bool :=
  !s.toList.isEmpty && s.toList.all (fun c => c != '<' && c != '{') &&
    !hasWindowsLineEnd s.toList

/-- An attribute that is bare or has a text, and whose directive is the one that its name asks
for. -/
def Attr.isCanonical (a : Attr) : Bool :=
  !a.name.toList.isEmpty && a.name.toList.all isAttrChar && a.directive == directiveName? a.name &&
    !a.expression &&
    match a.value with
    | .text s => !hasWindowsLineEnd s.toList
    | .flag b => b

/-- Whether a node is text. -/
def Node.isText : Node → Bool
  | .text _ _ => true
  | _ => false

mutual

/-- A text or an element that is written so that it can be read back. -/
def Node.isCanonical : Node → Bool
  | .text value _ => isCanonicalText value
  | .element tag attrs children selfClosing _ =>
    isCanonicalTag tag && attrs.all Attr.isCanonical &&
      (!isVoidElement tag || children.isEmpty && !selfClosing) &&
      (!selfClosing || children.isEmpty) && Node.allCanonical children
  | _ => false

/-- Canonical nodes among which no two texts are adjacent. -/
def Node.allCanonical : List Node → Bool
  | [] => true
  | n :: ns => n.isCanonical && !(n.isText && ns.head?.any Node.isText) && Node.allCanonical ns

end

/-- A document of canonical nodes. -/
def Fragment.isCanonical (f : Fragment) : Bool :=
  Node.allCanonical f.children

/-! ## Trees up to places, and with escaped values -/

/-- The attribute without its place. -/
def Attr.unplaced (a : Attr) : Attr :=
  { a with span := .empty }

/-- The attribute with its text the way it stands between quotes. -/
def Attr.escaped (a : Attr) : Attr :=
  match a.value with
  | .text s => { a with value := .text (escapeAttr s) }
  | .flag _ => a

mutual

/-- The node with every place in it taken out. -/
def Node.unplaced : Node → Node
  | .text value _ => .text value .empty
  | .expression code _ incomplete => .expression code .empty incomplete
  | .raw value _ => .raw value .empty
  | .frontmatter code _ => .frontmatter code .empty
  | .element tag attrs children selfClosing _ =>
    .element tag (attrs.map Attr.unplaced) (Node.unplacedAll children) selfClosing .empty
  | .component tag attrs children selfClosing _ =>
    .component tag (attrs.map Attr.unplaced) (Node.unplacedAll children) selfClosing .empty
  | .fragment children _ => .fragment (Node.unplacedAll children) .empty

/-- The nodes with every place in them taken out. -/
def Node.unplacedAll : List Node → List Node
  | [] => []
  | n :: ns => n.unplaced :: Node.unplacedAll ns

end

mutual

/-- The node with all texts of attributes the way they stand between quotes. -/
def Node.escaped : Node → Node
  | .element tag attrs children selfClosing span =>
    .element tag (attrs.map Attr.escaped) (Node.escapedAll children) selfClosing span
  | .component tag attrs children selfClosing span =>
    .component tag (attrs.map Attr.escaped) (Node.escapedAll children) selfClosing span
  | .fragment children span => .fragment (Node.escapedAll children) span
  | n => n

/-- The nodes with all texts of attributes the way they stand between quotes. -/
def Node.escapedAll : List Node → List Node
  | [] => []
  | n :: ns => n.escaped :: Node.escapedAll ns

end

/-- The document with every place in it taken out. -/
def Fragment.unplaced (f : Fragment) : Fragment :=
  ⟨Node.unplacedAll f.children, .empty⟩

/-- The document with all texts of attributes the way they stand between quotes. -/
def Fragment.escaped (f : Fragment) : Fragment :=
  ⟨Node.escapedAll f.children, f.span⟩

/-! ## What is written -/

/-- What is written for an attribute. -/
def Attr.written (a : Attr) : List Char :=
  match a.value with
  | .text s => ' ' :: a.name.toList ++ '=' :: '"' :: (escapeAttr s).toList ++ ['"']
  | .flag _ => ' ' :: a.name.toList

mutual

/-- What is written for a node. -/
def Node.written : Node → List Char
  | .text value _ => value.toList
  | .element tag attrs children selfClosing _ =>
    '<' :: (tag.toList ++ (attrs.flatMap Attr.written ++
      if isVoidElement tag then ['>']
      else if selfClosing then [' ', '/', '>']
      else '>' :: (Node.writtenAll children ++ '<' :: '/' :: (tag.toList ++ ['>']))))
  | _ => []

/-- What is written for nodes one behind the other. -/
def Node.writtenAll : List Node → List Char
  | [] => []
  | n :: ns => n.written ++ Node.writtenAll ns

end

/-! ## The builder writes just that -/

theorem isCanonicalTagChar.bounds {c : Char} (h : isCanonicalTagChar c = true) :
    c.toNat < 65 ∨ 90 < c.toNat ∧ c.toNat < 128 := by
  rw [isCanonicalTagChar, Bool.or_eq_true, Bool.or_eq_true, beq_iff_eq] at h
  rcases h with (hlower | hdigit) | rfl
  · have hrange : 97 ≤ c.toNat ∧ c.toNat ≤ 122 := by
      simpa [Char.isLower, UInt32.le_iff_toNat_le] using hlower
    omega
  · have hrange : 48 ≤ c.toNat ∧ c.toNat ≤ 57 := by
      simpa [Char.isDigit, UInt32.le_iff_toNat_le] using hdigit
    omega
  · decide

/-- The characters of a canonical tag are their own lower case. -/
theorem isCanonicalTagChar.lower {c : Char} (h : isCanonicalTagChar c = true) :
    lowerImage c = [c] ∧ c ≠ 'Σ' ∧ isUpper c = false := by
  have hbounds := isCanonicalTagChar.bounds h
  have hascii : c.toNat < 0x80 := by omega
  have hupper : ¬(c.val ≥ 'A'.val ∧ c.val ≤ 'Z'.val) := by
    rw [ge_iff_le, UInt32.le_iff_toNat_le, UInt32.le_iff_toNat_le]
    show ¬(65 ≤ c.toNat ∧ c.toNat ≤ 90)
    omega
  refine ⟨?_, ?_, ?_⟩
  · rw [lowerImage, if_pos hascii, Char.toLower, dif_neg hupper]
  · rintro rfl
    exact absurd hascii (by decide)
  · rw [isUpper, if_pos hascii, Char.isUpper, decide_eq_false hupper]

theorem isCanonicalTagChar.isTagChar {c : Char} (h : isCanonicalTagChar c = true) :
    isTagChar c = true := by
  rw [isCanonicalTagChar, Bool.or_eq_true, Bool.or_eq_true] at h
  rw [Markup.isTagChar, Char.isAlphanum, Char.isAlpha]
  rcases h with (h | h) | h
  · simp [h]
  · simp [h]
  · simp [h]

theorem lowerFrom_eq_self (before : List Char)
    (h : s.all isCanonicalTagChar = true) : lowerFrom before s = s := by
  induction s generalizing before with
  | nil => rfl
  | cons c s ih =>
    rw [List.all_cons, Bool.and_eq_true] at h
    obtain ⟨himage, hne, -⟩ := isCanonicalTagChar.lower h.1
    have hsigma : (c == 'Σ') = false := beq_eq_false_iff_ne.2 hne
    rw [lowerFrom, hsigma]
    show lowerImage c ++ lowerFrom (c :: before) s = c :: s
    rw [himage, ih _ h.2, List.singleton_append]

/-- What a canonical tag is like: it names an element whose content is read. -/
structure CanonicalTag (tag : String) : Prop where
  ne_nil : tag.toList ≠ []
  chars : ∀ c ∈ tag.toList, isTagChar c = true
  lower : lower tag = tag
  element : isComponentName tag = false
  read : isRawTextElement tag = false

theorem isCanonicalTag.facts {tag : String} (h : isCanonicalTag tag = true) : CanonicalTag tag := by
  rw [isCanonicalTag, Bool.and_eq_true, Bool.and_eq_true, Bool.not_eq_true', Bool.not_eq_true'] at h
  obtain ⟨⟨hempty, hchars⟩, hraw⟩ := h
  have hlower : Text.lower tag = tag := by
    rw [Text.lower, lowerFrom_eq_self [] hchars, String.ofList_toList]
  refine ⟨by simpa using hempty, fun c hc => ?_, hlower, ?_, ?_⟩
  · exact isCanonicalTagChar.isTagChar (List.all_eq_true.1 hchars c hc)
  · rw [isComponentName, startsUpper]
    split
    · rename_i c cs hlist
      rw [hlist, List.all_cons, Bool.and_eq_true] at hchars
      exact (isCanonicalTagChar.lower hchars.1).2.2
    · rfl
  · rw [isRawTextElement, hlower, hraw]

/-- What a canonical attribute is like. -/
structure CanonicalAttr (a : Attr) : Prop where
  ne_nil : a.name.toList ≠ []
  chars : ∀ c ∈ a.name.toList, isAttrChar c = true
  directive : a.directive = directiveName? a.name
  expression : a.expression = false
  value : a.value = .flag true ∨ ∃ s, a.value = .text s ∧ hasWindowsLineEnd s.toList = false

theorem Attr.isCanonical.facts {a : Attr} (h : a.isCanonical = true) : CanonicalAttr a := by
  simp only [Attr.isCanonical, Bool.and_eq_true, Bool.not_eq_true', beq_iff_eq] at h
  obtain ⟨⟨⟨⟨hempty, hchars⟩, hdirective⟩, hexpression⟩, hvalue⟩ := h
  refine ⟨by simpa using hempty, List.all_eq_true.1 hchars, hdirective, hexpression, ?_⟩
  split at hvalue
  · rename_i s hs
    exact .inr ⟨s, hs, by simpa using hvalue⟩
  · rename_i b hb
    exact .inl (hvalue ▸ hb)

/-- What a canonical text is like. -/
structure CanonicalText (s : List Char) : Prop where
  ne_nil : s ≠ []
  chars : ∀ c ∈ s, c ≠ '<' ∧ c ≠ '{'
  line : hasWindowsLineEnd s = false

theorem isCanonicalText.facts {s : String} (h : isCanonicalText s = true) :
    CanonicalText s.toList := by
  simp only [isCanonicalText, Bool.and_eq_true, Bool.not_eq_true'] at h
  obtain ⟨⟨hempty, hchars⟩, hline⟩ := h
  exact ⟨by simpa using hempty, by simpa using hchars, hline⟩

/-- Canonical nodes one behind the other, the way they are built up. -/
inductive Canonical : List Node → Prop where
  | nil : Canonical []
  | text {value : String} {span : Span} {ns : List Node} (hvalue : CanonicalText value.toList)
      (hnext : ns.head?.any Node.isText = false) (hrest : Canonical ns) :
      Canonical (.text value span :: ns)
  | element {tag : String} {attrs : List Attr} {children ns : List Node} {selfClosing : Bool}
      {span : Span} (htag : CanonicalTag tag) (hattrs : ∀ a ∈ attrs, CanonicalAttr a)
      (hvoid : isVoidElement tag = true → children = [] ∧ selfClosing = false)
      (hclosed : selfClosing = true → children = []) (hchildren : Canonical children)
      (hrest : Canonical ns) : Canonical (.element tag attrs children selfClosing span :: ns)

/-- The test finds canonical nodes. -/
theorem canonical_of_allCanonical : (ns : List Node) → Node.allCanonical ns = true → Canonical ns
  | [], _ => .nil
  | .text value span :: ns, h => by
    simp only [Node.allCanonical, Node.isCanonical, Node.isText, Bool.true_and, Bool.and_eq_true,
      Bool.not_eq_true'] at h
    exact .text (isCanonicalText.facts h.1.1) h.1.2 (canonical_of_allCanonical ns h.2)
  | .element tag attrs children selfClosing span :: ns, h => by
    simp only [Node.allCanonical, Node.isCanonical, Bool.and_eq_true] at h
    obtain ⟨⟨⟨⟨⟨⟨htag, hattrs⟩, hvoid⟩, hclosed⟩, hchildren⟩, -⟩, hrest⟩ := h
    refine .element (isCanonicalTag.facts htag)
      (fun a ha => Attr.isCanonical.facts (List.all_eq_true.1 hattrs a ha)) (fun hv => ?_)
      (fun hc => ?_) (canonical_of_allCanonical children hchildren)
      (canonical_of_allCanonical ns hrest)
    · simpa [hv] using hvoid
    · simpa [hc] using hclosed
  | .expression _ _ _ :: _, h => by simp [Node.allCanonical, Node.isCanonical] at h
  | .raw _ _ :: _, h => by simp [Node.allCanonical, Node.isCanonical] at h
  | .frontmatter _ _ :: _, h => by simp [Node.allCanonical, Node.isCanonical] at h
  | .component _ _ _ _ _ :: _, h => by simp [Node.allCanonical, Node.isCanonical] at h
  | .fragment _ _ :: _, h => by simp [Node.allCanonical, Node.isCanonical] at h

/-- An element as it is written. -/
theorem elementText_written (tag : String) (attrs : List Attr) (children : List Node)
    (selfClosing : Bool) (span : Span) :
    Build.elementText tag (String.ofList (attrs.flatMap Attr.written)) selfClosing
        (String.ofList (Node.writtenAll children)) =
      String.ofList (Node.element tag attrs children selfClosing span).written := by
  rw [← String.toList_inj, String.toList_ofList, Build.elementText, Node.written]
  split
  · simp
  · split
    · simp
    · simp

section

variable {o : Build.Options} (scope : Script.Scope)

/-- The attributes of a tag. -/
theorem attrsText_canonical {attrs : List Attr} (h : ∀ a ∈ attrs, CanonicalAttr a) :
    Build.attrsText o scope attrs = .ok (String.ofList (attrs.flatMap Attr.written)) := by
  induction attrs with
  | nil => rfl
  | cons a attrs ih =>
    rw [List.forall_mem_cons] at h
    obtain ⟨ha, hattrs⟩ := h
    have hvalue : Build.attrValue o scope a = .ok a.value := by
      simp [Build.attrValue, ha.expression]
    have htext : Build.attrText a.name a.value = String.ofList a.written := by
      rw [← String.toList_inj, String.toList_ofList, Attr.written]
      rcases ha.value with hflag | ⟨s, hs, -⟩
      · simp [hflag, Build.attrText]
      · simp [hs, Build.attrText]
    rw [Build.attrsText, hvalue, ih hattrs]
    show Except.ok _ = _
    rw [htext, List.flatMap_cons, String.ofList_append]

/-- **The markup of canonical nodes** is what is written for them. -/
theorem Canonical.toText_emitAll (h : Canonical ns) (hescape : o.escape = false) (depth : Nat)
    (raw : Bool) :
    (Build.emitAll o scope depth false raw ns).toText =
      .ok (String.ofList (Node.writtenAll ns)) := by
  induction h generalizing depth raw with
  | nil => rfl
  | @text value span ns hvalue hnext hrest ih =>
    rw [Build.emitAll, Build.Emission.toText_append, ih, Build.emit, Build.Emission.toText_piece,
      Build.textPiece, hescape, Node.writtenAll, Node.written, String.ofList_append,
      String.ofList_toList]
    rfl
  | @element tag attrs children ns selfClosing span htag hattrs hvoid hclosed hchildren hrest
      ihchildren ih =>
    rw [Build.emitAll, Build.Emission.toText_append, ih,
      Build.toText_emit_element (attrsText_canonical scope hattrs) (ihchildren _ _), htag.lower,
      elementText_written tag attrs children selfClosing span, Node.writtenAll,
      String.ofList_append]
    rfl

end

/-- The markup of a canonical document. -/
theorem Fragment.markup_of_canonical {f : Fragment} (h : Canonical f.children) :
    Build.markup f { Build.Options.default with escape := false } =
      .ok (String.ofList (Node.writtenAll f.children)) :=
  Build.markup_plain rfl rfl (h.toText_emitAll _ rfl 0 false)

/-! ## Line ends -/

/-- No Windows line end stands in the text. -/
def Unbroken (s : List Char) : Prop :=
  s.IsChain fun c d => ¬(c = '\r' ∧ d = '\n')

theorem unbroken_of_not_hasWindowsLineEnd (h : hasWindowsLineEnd s = false) : Unbroken s := by
  induction s with
  | nil => exact .nil
  | cons c s ih =>
    rw [hasWindowsLineEnd, occursIn, find?] at h
    split at h
    · cases h
    · rename_i hprefix
      rw [Option.isSome_map] at h
      refine List.isChain_cons.2 ⟨?_, ih h⟩
      rintro d hd ⟨rfl, rfl⟩
      cases s with
      | nil => cases hd
      | cons e s =>
        cases hd
        exact hprefix (by simp)

/-- Such a text is not changed when line ends are unified. -/
theorem Unbroken.unifyNewlines {s : List Char} (h : Unbroken s) : unifyNewlines s = s := by
  fun_induction Text.unifyNewlines s with
  | case1 cs ih => exact absurd ⟨rfl, rfl⟩ (List.isChain_cons_cons.1 h).1
  | case2 c cs hne ih => rw [ih h.tail]
  | case3 => rfl

theorem unbroken_of_not_mem (h : '\r' ∉ s) : Unbroken s := by
  induction s with
  | nil => exact .nil
  | cons c s ih =>
    rw [List.mem_cons, not_or] at h
    exact List.isChain_cons.2 ⟨fun d _ heq => h.1 heq.1.symm, ih h.2⟩

/-- A text that does not start with a newline may come behind any other. -/
theorem Unbroken.append_of_head {a b : List Char} (ha : Unbroken a) (hb : Unbroken b)
    (h : b.head? ≠ some '\n') : Unbroken (a ++ b) :=
  List.isChain_append.2 ⟨ha, hb, fun _ _ _ hy heq => h (heq.2 ▸ hy)⟩

/-- A text that does not end with a carriage return may come before any other. -/
theorem Unbroken.append_of_last {a b : List Char} (ha : Unbroken a) (hb : Unbroken b)
    (h : a.getLast? ≠ some '\r') : Unbroken (a ++ b) :=
  List.isChain_append.2 ⟨ha, hb, fun _ hx _ _ heq => h (heq.1 ▸ hx)⟩

/-- A newline starts an escaped value only if it starts the value. -/
theorem head?_flatMap_escapeBetween {q : Char} (hq : q = '\'' ∨ q = '"') {cs : List Char} {y : Char}
    (h : y ∈ (cs.flatMap fun c => if c == '&' || c == q then escapeChar c else [c]).head?)
    (hy : y = '\n') : y ∈ cs.head? := by
  cases cs with
  | nil => cases h
  | cons d ds =>
    rw [List.flatMap_cons] at h
    split at h
    · rename_i hspecial
      rw [Bool.or_eq_true, beq_iff_eq, beq_iff_eq] at hspecial
      subst hy
      rcases hspecial with rfl | rfl
      · exact absurd (Option.some.inj (show some '&' = some '\n' from h)) (by decide)
      · rcases hq with rfl | rfl
        · exact absurd (Option.some.inj (show some '&' = some '\n' from h)) (by decide)
        · exact absurd (Option.some.inj (show some '&' = some '\n' from h)) (by decide)
    · exact h

/-- Escaping a value makes no line ends. -/
theorem unbroken_escapeAttr {s : String} (h : hasWindowsLineEnd s.toList = false) :
    Unbroken (escapeAttr s).toList := by
  rw [escapeAttr, escapeBetween, String.toList_ofList]
  have hs := unbroken_of_not_hasWindowsLineEnd h
  generalize s.toList = cs at hs
  induction cs with
  | nil => exact .nil
  | cons c cs ih =>
    obtain ⟨hfirst, hrest⟩ := List.isChain_cons.1 hs
    rw [List.flatMap_cons]
    split
    · rename_i hspecial
      rw [Bool.or_eq_true, beq_iff_eq, beq_iff_eq] at hspecial
      rcases hspecial with rfl | rfl
      · exact (unbroken_of_not_mem (by decide)).append_of_last (ih hrest) (by decide)
      · exact (unbroken_of_not_mem (by decide)).append_of_last (ih hrest) (by decide)
    · refine List.isChain_cons.2 ⟨fun y hy heq => ?_, ih hrest⟩
      exact hfirst y (head?_flatMap_escapeBetween (.inr rfl) hy heq.2) heq

theorem unbroken_written_attr {a : Attr} (h : CanonicalAttr a) : Unbroken a.written := by
  have hname : '\r' ∉ a.name.toList := fun hmem => absurd (h.chars _ hmem) (by decide)
  rcases h.value with hflag | ⟨s, hs, hline⟩
  · simp only [Attr.written, hflag]
    exact unbroken_of_not_mem (by simpa using hname)
  · have hlead : Unbroken (' ' :: a.name.toList ++ ['=', '"']) :=
      unbroken_of_not_mem (by simpa using hname)
    have hvalue : Unbroken (' ' :: a.name.toList ++ ['=', '"'] ++ (escapeAttr s).toList) :=
      hlead.append_of_last (unbroken_escapeAttr hline)
        (by rw [List.getLast?_append_of_ne_nil _ (by simp)]; decide)
    simpa [Attr.written, hs] using
      hvalue.append_of_head (unbroken_of_not_mem (s := ['"']) (by decide)) (by decide)

/-- A blank leads every attribute. -/
theorem Attr.head?_written (a : Attr) : a.written.head? = some ' ' := by
  unfold Attr.written
  split
  · rfl
  · rfl

theorem head?_written_attrs (attrs : List Attr) :
    ∀ c ∈ (attrs.flatMap Attr.written).head?, c = ' ' := by
  cases attrs with
  | nil => simp
  | cons a attrs =>
    rw [List.flatMap_cons, List.head?_append, Attr.head?_written]
    simp

theorem unbroken_written_attrs {attrs : List Attr} (h : ∀ a ∈ attrs, CanonicalAttr a) :
    Unbroken (attrs.flatMap Attr.written) := by
  induction attrs with
  | nil => exact .nil
  | cons a attrs ih =>
    rw [List.forall_mem_cons] at h
    rw [List.flatMap_cons]
    refine (unbroken_written_attr h.1).append_of_head (ih h.2) fun hhead => ?_
    exact absurd (head?_written_attrs attrs _ hhead) (by decide)

/-- Behind a text, a tag or the end follows. -/
theorem Canonical.head?_writtenAll (h : Canonical ns)
    (hfirst : ns.head?.any Node.isText = false) : ∀ c ∈ (Node.writtenAll ns).head?, c = '<' := by
  cases h with
  | nil => simp [Node.writtenAll]
  | text _ _ _ => cases hfirst
  | element _ _ _ _ _ _ => simp [Node.writtenAll, Node.written]

/-- The last character of an element. -/
theorem getLast?_written_element (tag : String) (attrs : List Attr) (children : List Node)
    (selfClosing : Bool) (span : Span) :
    (Node.element tag attrs children selfClosing span).written.getLast? = some '>' := by
  rw [Node.written]
  split
  · simp [List.getLast?_cons]
  · split
    · simp [List.getLast?_cons]
    · simp [List.getLast?_cons]

/-- **No Windows line end comes up** where two pieces of markup meet. -/
theorem Canonical.unbroken (h : Canonical ns) : Unbroken (Node.writtenAll ns) := by
  induction h with
  | nil => exact .nil
  | text hvalue hnext hrest ih =>
    rw [Node.writtenAll, Node.written]
    refine (unbroken_of_not_hasWindowsLineEnd hvalue.line).append_of_head ih fun hhead => ?_
    exact absurd (hrest.head?_writtenAll hnext _ hhead) (by decide)
  | @element tag attrs children ns selfClosing span htag hattrs hvoid hclosed hchildren hrest
      ihchildren ih =>
    rw [Node.writtenAll]
    refine Unbroken.append_of_last ?_ ih (by rw [getLast?_written_element]; decide)
    have hname : '\r' ∉ tag.toList := fun hmem => absurd (htag.chars _ hmem) (by decide)
    have hopening : Unbroken ('<' :: tag.toList ++ attrs.flatMap Attr.written) := by
      refine (unbroken_of_not_mem (by simpa using hname)).append_of_head
        (unbroken_written_attrs hattrs) fun hhead => ?_
      exact absurd (head?_written_attrs attrs _ hhead) (by decide)
    rw [Node.written, ← List.cons_append, ← List.append_assoc]
    split
    · exact hopening.append_of_head (unbroken_of_not_mem (by decide)) (by decide)
    · split
      · exact hopening.append_of_head (unbroken_of_not_mem (by decide)) (by decide)
      · have hclosing : Unbroken ('<' :: '/' :: (tag.toList ++ ['>'])) :=
          unbroken_of_not_mem (by simpa using hname)
        have hinner := ihchildren.append_of_head hclosing (by simp)
        refine hopening.append_of_head ?_ (by simp)
        exact (unbroken_of_not_mem (s := ['>']) (by decide)).append_of_last hinner (by decide)

end Markup
end Atoll
