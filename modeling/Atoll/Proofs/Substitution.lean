import Atoll.Proofs.Outcome
import Atoll.Proofs.Rendering

/-!
# Rendering leaves nothing to substitute

A rendered template has neither placeholders nor scripts nor components left, no attribute that is
still to be evaluated and no slot that is still to be filled.  So there is nothing in it for a
second rendering to work on.

* `isInert` — the nodes that stand for themselves.
* `inert_renderNode`, `inert_renderNodes` — **only such nodes are left in the place of a node**, by
  induction on the tree.
* `yields_renderNode_inert`, `yields_renderNodes_inert` — a tree of such nodes is rendered as it is,
  whatever the names, components and slots are, and the host is not asked for anything.
* `inert_renderTemplate` — both together.
-/

set_option autoImplicit false

namespace Atoll
namespace Render

open Atoll.Expr (Fault)
open Markup
open Script (Scope)

/-! ## Nodes that stand for themselves -/

/-- Whether rendering has nothing to put in the place of a node or of one of its attributes. -/
def isInert : Node → Bool
  | .fragment _ _ => true
  | .text _ _ => true
  | .raw _ _ => true
  | .element tag attrs _ _ _ => Text.lower tag != slotTag && attrs.all fun a => !a.expression
  | .frontmatter _ _ => false
  | .expression _ _ _ => false
  | .component _ _ _ _ _ => false

/-- Rendered attributes are not evaluated any more. -/
theorem expression_of_mapM_renderAttr {scope : Scope} {attrs rendered : List Attr}
    (h : attrs.mapM (renderAttr scope) = .ok rendered) : ∀ a ∈ rendered, a.expression = false := by
  induction attrs generalizing rendered with
  | nil =>
    cases h
    exact List.forall_mem_nil _
  | cons a attrs ih =>
    rw [List.mapM_cons] at h
    obtain ⟨b, hb, h⟩ := exists_of_bind h
    obtain ⟨bs, hbs, h⟩ := exists_of_bind h
    cases h
    refine List.forall_mem_cons.2 ⟨?_, ih hbs⟩
    rw [renderAttr] at hb
    split at hb
    · obtain ⟨value, -, hb⟩ := exists_of_bind hb
      cases hb
      rfl
    · rename_i hplain
      cases hb
      simpa using hplain

/-- Attributes that are not evaluated are rendered as they are. -/
theorem mapM_renderAttr_of_plain (scope : Scope) {attrs : List Attr}
    (h : ∀ a ∈ attrs, a.expression = false) : attrs.mapM (renderAttr scope) = .ok attrs := by
  induction attrs with
  | nil => rfl
  | cons a attrs ih =>
    obtain ⟨ha, hattrs⟩ := List.forall_mem_cons.1 h
    rw [List.mapM_cons, ih hattrs, renderAttr, ha]
    rfl

/-! ## One rendering -/

section

variable {σ : Type} {r : Renderer σ}

mutual

/-- **What stands in the place of a node stands for itself**, with everything below it. -/
theorem inert_renderNode (n : Node) {here : Option Node} {before after : State σ}
    (h : Yields (renderNode r n) before here after) :
    ∀ m ∈ Node.walkAll here.toList, isInert m = true :=
  match n with
  | .fragment children span => by
    rw [renderNode] at h
    obtain ⟨rendered, hchildren, rfl⟩ := h.bind_pure_inv
    have hinner := inert_renderNodes children hchildren
    simpa [Node.walkAll, Node.walk, isInert] using hinner
  | .frontmatter code span => by
    rw [renderNode] at h
    obtain ⟨rfl, -⟩ := yields_pure.mp h
    simp [Node.walkAll]
  | .text value span => by
    rw [renderNode] at h
    obtain ⟨rfl, -⟩ := yields_pure.mp h
    simp [Node.walkAll, Node.walk, isInert]
  | .raw value span => by
    rw [renderNode] at h
    obtain ⟨rfl, -⟩ := yields_pure.mp h
    simp [Node.walkAll, Node.walk, isInert]
  | .expression code span incomplete => by
    rw [renderNode] at h
    obtain ⟨text, -, rfl⟩ := h.bind_pure_inv
    simp [Node.walkAll, Node.walk, isInert]
  | .element tag attrs children selfClosing span => by
    rw [renderNode] at h
    split at h
    · -- a slot: the given content, or the fallback as a list of nodes
      split at h
      · obtain ⟨rfl, -⟩ := yields_pure.mp h
        simp [Node.walkAll, Node.walk, isInert]
      · obtain ⟨rendered, hchildren, rfl⟩ := h.bind_pure_inv
        have hinner := inert_renderNodes children hchildren
        simpa [Node.walkAll, Node.walk, isInert] using hinner
    · rename_i hslot
      have htag : Text.lower tag ≠ slotTag := by simpa using hslot
      obtain ⟨plain, between, hattrs, hrest⟩ := h.bind_inv
      obtain ⟨rendered, hchildren, rfl⟩ := hrest.bind_pure_inv
      have hinner := inert_renderNodes children hchildren
      have hplain := expression_of_mapM_renderAttr (yields_liftFault.mp hattrs).1
      have hself : isInert (.element tag plain rendered selfClosing span) = true := by
        simpa [isInert, htag] using hplain
      simpa [Node.walkAll, Node.walk, hself] using hinner
  | .component tag attrs children selfClosing span => by
    rw [renderNode] at h
    obtain ⟨props, s₁, -, hrest⟩ := h.bind_inv
    obtain ⟨inner, s₂, -, hrest⟩ := hrest.bind_inv
    obtain ⟨content, s₃, -, hrest⟩ := hrest.bind_inv
    obtain ⟨html, -, rfl⟩ := hrest.bind_pure_inv
    simp [Node.walkAll, Node.walk, isInert]

/-- What stands in the place of nodes stands for itself, with everything below it. -/
theorem inert_renderNodes (ns : List Node) {rendered : List Node} {before after : State σ}
    (h : Yields (renderNodes r ns) before rendered after) :
    ∀ m ∈ Node.walkAll rendered, isInert m = true :=
  match ns with
  | [] => by
    rw [renderNodes] at h
    obtain ⟨rfl, -⟩ := yields_pure.mp h
    simp [Node.walkAll]
  | n :: ns => by
    rw [renderNodes] at h
    obtain ⟨here, between, hhere, hrest⟩ := h.bind_inv
    obtain ⟨later, hlater, rfl⟩ := hrest.bind_pure_inv
    intro m hm
    obtain ⟨k, hk, hm⟩ := Node.mem_walkAll.1 hm
    rcases List.mem_append.1 hk with hk | hk
    · exact inert_renderNode n hhere m (Node.mem_walkAll.2 ⟨k, hk, hm⟩)
    · exact inert_renderNodes ns hlater m (Node.mem_walkAll.2 ⟨k, hk, hm⟩)

end

end

/-! ## A second rendering -/

section

variable {σ : Type}

theorem Yields.bind {α β : Type} {x : RenderM σ α} {f : α → RenderM σ β} {a : α} {b : β}
    {before between after : State σ} (hx : Yields x before a between)
    (hf : Yields (f a) between b after) : Yields (x >>= f) before b after := by
  rw [Yields, run_bind, hx]
  exact hf

variable (r : Renderer σ) (s : State σ)

mutual

/-- **A node that stands for itself is rendered as it is**, if all nodes below it do so, and the
state stays as it is. -/
theorem yields_renderNode_inert (n : Node) (h : ∀ m ∈ n.walk, isInert m = true) :
    Yields (renderNode r n) s (some n) s :=
  match n with
  | .fragment children span => by
    have hchildren := yields_renderNodes_inert children
      fun m hm => h m (mem_walk_of_children hm)
    rw [renderNode]
    exact hchildren.bind (yields_pure.mpr ⟨rfl, rfl⟩)
  | .text value span => by
    rw [renderNode]
    exact yields_pure.mpr ⟨rfl, rfl⟩
  | .raw value span => by
    rw [renderNode]
    exact yields_pure.mpr ⟨rfl, rfl⟩
  | .element tag attrs children selfClosing span => by
    have hchildren := yields_renderNodes_inert children
      fun m hm => h m (mem_walk_of_children hm)
    have hself := h _ (Node.mem_walk_self _)
    rw [isInert, Bool.and_eq_true, List.all_eq_true] at hself
    have hslot : (Text.lower tag == slotTag) = false := by simpa using hself.1
    have hattrs := mapM_renderAttr_of_plain r.scope fun a ha => by simpa using hself.2 a ha
    rw [renderNode, hslot, hattrs]
    exact (yields_liftFault.mpr ⟨rfl, rfl⟩).bind (hchildren.bind (yields_pure.mpr ⟨rfl, rfl⟩))
  | .frontmatter code span => Bool.noConfusion (h _ (Node.mem_walk_self _))
  | .expression code span incomplete => Bool.noConfusion (h _ (Node.mem_walk_self _))
  | .component tag attrs children selfClosing span =>
    Bool.noConfusion (h _ (Node.mem_walk_self _))

/-- Nodes that stand for themselves are rendered as they are. -/
theorem yields_renderNodes_inert (ns : List Node) (h : ∀ m ∈ Node.walkAll ns, isInert m = true) :
    Yields (renderNodes r ns) s ns s :=
  match ns with
  | [] => by
    rw [renderNodes]
    exact yields_pure.mpr ⟨rfl, rfl⟩
  | n :: ns => by
    rw [Node.walkAll, List.forall_mem_append] at h
    have hhere := yields_renderNode_inert n h.1
    have hlater := yields_renderNodes_inert ns h.2
    rw [renderNodes]
    exact hhere.bind (hlater.bind (yields_pure.mpr ⟨rfl, rfl⟩))

end

end

/-! ## Templates -/

/-- **Rendering leaves nothing to substitute.**  Whatever a template is rendered with, all nodes of
the result are lists of nodes, texts, raw markup, or elements that are no slots and have no
attribute to evaluate.  So any other rendering gives the result back, and leaves the state as it
is. -/
theorem inert_renderTemplate {σ : Type} (r : Renderer σ) (template : Fragment)
    {result : Fragment} {before after : State σ}
    (h : Yields (renderTemplate r template) before result after) :
    (∀ n ∈ result.toNode.walk, isInert n = true) ∧
      ∀ {τ : Type} (r' : Renderer τ) (s : State τ),
        Yields (renderTemplate r' result) s result s := by
  rw [renderTemplate] at h
  obtain ⟨children, hchildren, rfl⟩ := h.bind_pure_inv
  have hinert := inert_renderNodes template.children hchildren
  constructor
  · simpa [Fragment.toNode, Node.walk, isInert] using hinert
  · intro τ r' s
    rw [renderTemplate]
    exact (yields_renderNodes_inert r' s children hinert).bind (yields_pure.mpr ⟨rfl, rfl⟩)

/-- A script, two slots of which one has its fallback only, and a component in an element. -/
def slotted : Fragment :=
  ⟨[.frontmatter "let x = 1" .empty,
    .element "Slot" [] [.expression "x" .empty false] false .empty,
    .element "slot" [⟨"name", .text "side", .empty, none, false⟩] [] true .empty,
    .element "p" [⟨"title", .text "\x7bx\x7d", .empty, none, true⟩]
      [.component "Card" [] [] true .empty] false .empty], .empty⟩

/-- What stands in the place of `slotted`. -/
def slottedRendered : Fragment :=
  ⟨[.fragment [.raw "&lt;" .empty] .empty,
    .raw "<i>\x7bx\x7d</i>" .empty,
    .element "p" [⟨"title", .text "<", .empty, none, false⟩]
      [.raw "<Card>\x7bx\x7d</Card>" .empty] false .empty], .empty⟩

/-- A renderer with a name, a slot, and a host whose components write a placeholder. -/
def slottedRenderer : Renderer Unit :=
  ⟨.ofNames [("x", .string "<")], [("Card", ⟨"Card", "./Card.vue", "vue"⟩)],
    some fun ref =>
      pure (some fun _ => pure ("<" ++ ref.name ++ ">\x7bx\x7d</" ++ ref.name ++ ">")),
    [("side", "<i>\x7bx\x7d</i>")]⟩

set_option maxRecDepth 4096 in
/-- What looks like a placeholder in content and in the markup of components is not evaluated by a
second rendering. -/
theorem inert_renderTemplate_slotted :
    Yields (renderTemplate slottedRenderer slotted) ⟨0, ()⟩ slottedRendered ⟨0, ()⟩ ∧
      (∀ n ∈ slottedRendered.toNode.walk, isInert n = true) ∧
      Yields (renderTemplate titledRenderer slottedRendered) ⟨7, ()⟩ slottedRendered ⟨7, ()⟩ := by
  have hrendered :
      Yields (renderTemplate slottedRenderer slotted) ⟨0, ()⟩ slottedRendered ⟨0, ()⟩ := by
    have htext : slottedRenderer.scope.textOf "x" = .ok "<" := by cbv
    have hvalue : slottedRenderer.scope.attrValueOf "x" = .ok (.text "<") := by cbv
    have hslot : (Text.lower "Slot" == slotTag) = true := by decide
    have hslot' : (Text.lower "slot" == slotTag) = true := by decide
    have hplain : (Text.lower "p" == slotTag) = false := by decide
    have hattrs := mapM_renderAttr_title hvalue
    rw [Yields, renderTemplate, slotted]
    simp only [renderNodes, renderNode, hslot, hslot', hplain, htext, hattrs, liftFault]
    rfl
  have hinert := inert_renderTemplate slottedRenderer slotted hrendered
  exact ⟨hrendered, hinert.1, hinert.2 titledRenderer ⟨7, ()⟩⟩

end Render
end Atoll
