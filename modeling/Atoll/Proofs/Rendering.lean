import Atoll.Proofs.Emission
import Atoll.Render.Template
import Mathlib

/-!
# Rendering and building are the same renderer

A document can be turned into markup in two ways.  `Build.markup` evaluates the placeholders while
it writes.  `Render.renderTemplate` first puts values in the place of everything that has one, which
leaves a tree of elements, texts and raw markup, and `Render.serialize` writes that tree without
evaluating anything.  This file shows that both give the same text.

* `Yields x before a after` — the computation `x` succeeds with `a`; the lemmas beside it take a
  successful rendering apart step by step.
* `attrsText_renderAttr` — attributes are dropped, bare or quoted alike.
* `emit_renderNode`, `emitAll_renderNodes` — what stands in the place of a node is written like the
  node, by induction on the tree.
* `serialize_renderTemplate` — the result, for documents without slots and without islands, which
  only the rendering has a meaning for.
-/

set_option autoImplicit false

namespace Atoll
namespace Render

open Build (Options Emission emit emitAll attrsText attrValue)
open Atoll.Expr (Fault)
open Markup
open Script (Scope)

/-! ## Successful renderings -/

section

variable {σ α β : Type} {before after : State σ}

/-- The computation succeeds: it starts in the state `before`, gives `a` and ends in `after`. -/
def Yields (x : RenderM σ α) (before : State σ) (a : α) (after : State σ) : Prop :=
  x.run.run before = (.ok a, after)

theorem yields_pure {a b : α} :
    Yields (pure a : RenderM σ α) before b after ↔ a = b ∧ before = after := by
  show ((Except.ok a, before) : Except Error α × State σ) = (Except.ok b, after) ↔ _
  rw [Prod.mk.injEq, Except.ok.injEq]

/-- One step after another; the state survives a failure of the first. -/
theorem run_bind (x : RenderM σ α) (f : α → RenderM σ β) (before : State σ) :
    (x >>= f).run.run before =
      match x.run.run before with
      | (.ok a, between) => (f a).run.run between
      | (.error e, between) => (.error e, between) := by
  show (match x.run.run before with | (r, s) => (ExceptT.bindCont f r).run s) = _
  cases x.run.run before with
  | mk result between => cases result <;> rfl

/-- Both steps of a computation succeed if it does. -/
theorem Yields.bind_inv {x : RenderM σ α} {f : α → RenderM σ β} {b : β}
    (h : Yields (x >>= f) before b after) :
    ∃ a between, Yields x before a between ∧ Yields (f a) between b after := by
  rw [Yields, run_bind] at h
  cases hx : x.run.run before with
  | mk result between =>
    rw [hx] at h
    cases result with
    | ok a => exact ⟨a, between, hx, h⟩
    | error e => cases h

/-- A last step that only returns has its say in the result alone. -/
theorem Yields.bind_pure_inv {x : RenderM σ α} {g : α → β} {b : β}
    (h : Yields (x >>= fun a => pure (g a)) before b after) :
    ∃ a, Yields x before a after ∧ g a = b := by
  obtain ⟨a, between, hx, hpure⟩ := h.bind_inv
  obtain ⟨rfl, rfl⟩ := yields_pure.mp hpure
  exact ⟨a, hx, rfl⟩

theorem yields_liftFault {r : Except Fault α} {a : α} :
    Yields (liftFault r : RenderM σ α) before a after ↔ r = .ok a ∧ before = after := by
  cases r with
  | ok b =>
    rw [liftFault, yields_pure, Except.ok.injEq]
  | error fault =>
    constructor
    · intro h
      cases h
    · rintro ⟨h, -⟩
      cases h

end

/-! ## Attributes -/

section

variable {plain full : Options} {blank scope : Scope}

/-- A rendered attribute has its value written down; nothing is left to evaluate. -/
theorem attrValue_renderAttr (hplain : plain.evaluate = false) (hfull : full.evaluate = true)
    {a b : Attr} (h : renderAttr scope a = .ok b) :
    ∃ value, attrValue plain blank b = .ok value ∧ attrValue full scope a = .ok value ∧
      b.name = a.name := by
  rw [renderAttr] at h
  split at h
  · rename_i hexpr
    cases hv : scope.attrValueOf a.code with
    | error fault =>
      rw [hv] at h
      cases h
    | ok value =>
      rw [hv] at h
      cases h
      refine ⟨value, ?_, ?_, rfl⟩
      · simp [attrValue]
      · simp [attrValue, hexpr, hfull, hv]
  · rename_i hexpr
    cases h
    exact ⟨a.value, by simp [attrValue, hplain], by simp [attrValue, hexpr], rfl⟩

/-- **Rendered attributes are written like the attributes they stand for.** -/
theorem attrsText_renderAttr (hplain : plain.evaluate = false) (hfull : full.evaluate = true)
    {attrs rendered : List Attr} (h : attrs.mapM (renderAttr scope) = .ok rendered) :
    ∃ out, attrsText plain blank rendered = .ok out ∧ attrsText full scope attrs = .ok out := by
  induction attrs generalizing rendered with
  | nil =>
    cases h
    exact ⟨"", rfl, rfl⟩
  | cons a attrs ih =>
    rw [List.mapM_cons] at h
    cases ha : renderAttr scope a with
    | error fault =>
      rw [ha] at h
      cases h
    | ok b =>
      cases hrest : attrs.mapM (renderAttr scope) with
      | error fault =>
        rw [ha, hrest] at h
        cases h
      | ok bs =>
        rw [ha, hrest] at h
        cases h
        obtain ⟨value, hb, ha', hname⟩ := attrValue_renderAttr hplain hfull ha
        obtain ⟨out, hbs, has⟩ := ih hrest
        refine ⟨Build.attrText a.name value ++ out, ?_, ?_⟩
        · rw [attrsText, hb, hbs, hname]
          rfl
        · rw [attrsText, ha', has]
          rfl

end

/-! ## Nodes -/

theorem mem_walk_of_children {n m : Node} (h : m ∈ Node.walkAll n.children) : m ∈ n.walk := by
  cases n <;> simp_all [Node.walk, Node.children, Node.walkAll]

/-- Whether a node is a slot. -/
def isSlot : Node → Bool
  | .element tag _ _ _ _ => Text.lower tag == slotTag
  | _ => false

/-- A node that building and rendering both have a meaning for: no slot, and no component that asks
for an island. -/
def Common (n : Node) : Prop :=
  isSlot n = false ∧ n.directive? = none

/-- Without a resolver and without a directive, a component leaves its comment. -/
theorem yields_componentMarkup {σ : Type} {r : Renderer σ} (hresolve : r.resolve = none)
    {tag : String} {attrs : List Attr} (hattrs : attrs.find? (·.directive.isSome) = none)
    {props : Entries} {content html : String} {before after : State σ}
    (h : Yields (componentMarkup r tag attrs props content) before html after) :
    html = Build.componentComment tag := by
  rw [componentMarkup] at h
  obtain ⟨inner, between, hinner, hrest⟩ := h.bind_inv
  have hnone : inner = none := by
    rw [renderComponent, hresolve] at hinner
    cases hl : r.components.lookup tag with
    | none => rw [hl] at hinner; exact (yields_pure.mp hinner).1.symm
    | some ref => rw [hl] at hinner; exact (yields_pure.mp hinner).1.symm
  subst hnone
  rw [hattrs] at hrest
  exact (yields_pure.mp hrest).1.symm

/-- What has been rendered is written as it is. -/
theorem toText_emitAll_raw (o : Options) (scope : Scope) (depth : Nat) (raw : Bool)
    (value : String) (span : Span) :
    (emitAll o scope depth false raw (some (Node.raw value span)).toList).toText = .ok value := by
  rw [Option.toList_some, Build.toText_emitAll_singleton, emit, Emission.toText_piece]
  rfl

/-- The two ways of writing a document: `plain` writes what the renderer `r` leaves, `full`
evaluates on its own, and both escape. -/
structure Alike {σ : Type} (plain full : Options) (r : Renderer σ) : Prop where
  /-- Nothing is evaluated behind the renderer. -/
  plainEvaluate : plain.evaluate = false
  /-- The builder evaluates. -/
  fullEvaluate : full.evaluate = true
  /-- What the renderer leaves is escaped. -/
  plainEscape : plain.escape = true
  /-- What the builder writes is escaped. -/
  fullEscape : full.escape = true
  /-- No component is found. -/
  resolve : r.resolve = none

section

variable {σ : Type} {r : Renderer σ} {plain full : Options} {blank : Scope}

mutual

/-- **What stands in the place of a node is written like the node.** -/
theorem emit_renderNode (ho : Alike plain full r) (n : Node) (hn : ∀ m ∈ n.walk, Common m)
    {here : Option Node} {before after : State σ} (h : Yields (renderNode r n) before here after)
    (depth : Nat) (raw : Bool) :
    ∃ text, (emitAll plain blank depth false raw here.toList).toText = .ok text ∧
      (emit full r.scope depth false raw n).toText = .ok text :=
  match n with
  | .fragment children span => by
    rw [renderNode] at h
    obtain ⟨rendered, hchildren, rfl⟩ := h.bind_pure_inv
    obtain ⟨text, hp, hf⟩ := emitAll_renderNodes ho children
      (fun m hm => hn m (mem_walk_of_children hm)) hchildren depth raw
    refine ⟨text, ?_, ?_⟩
    · rw [Option.toList_some, Build.toText_emitAll_singleton, emit]
      exact hp
    · rw [emit]
      exact hf
  | .frontmatter code span => by
    rw [renderNode] at h
    obtain ⟨rfl, -⟩ := yields_pure.mp h
    exact ⟨"", by simp [emitAll], by simp [emit]⟩
  | .text value span => by
    rw [renderNode] at h
    obtain ⟨rfl, -⟩ := yields_pure.mp h
    refine ⟨Build.textPiece full value "" false raw, ?_, ?_⟩
    · rw [Option.toList_some, Build.toText_emitAll_singleton, emit, Emission.toText_piece,
        Build.textPiece, Build.textPiece, ho.plainEscape, ho.fullEscape]
      rfl
    · rw [emit, Emission.toText_piece]
      rfl
  | .raw value span => by
    rw [renderNode] at h
    obtain ⟨rfl, -⟩ := yields_pure.mp h
    refine ⟨value, toText_emitAll_raw plain blank depth raw value span, ?_⟩
    rw [emit, Emission.toText_piece]
    rfl
  | .expression code span incomplete => by
    rw [renderNode] at h
    obtain ⟨text, htext, rfl⟩ := h.bind_pure_inv
    obtain ⟨htext, -⟩ := yields_liftFault.mp htext
    refine ⟨escapeHtml text, toText_emitAll_raw plain blank depth raw _ _, ?_⟩
    rw [emit, Emission.toText_ofExcept, Build.expressionPiece, ho.fullEvaluate, htext,
      ho.fullEscape]
    rfl
  | .element tag attrs children selfClosing span => by
    have hslot : (Text.lower tag == slotTag) = false := (hn _ (Node.mem_walk_self _)).1
    rw [renderNode, hslot] at h
    obtain ⟨rendered, between, hattrs, hrest⟩ := h.bind_inv
    obtain ⟨inner, hchildren, rfl⟩ := hrest.bind_pure_inv
    obtain ⟨out, hout, hout'⟩ :=
      attrsText_renderAttr ho.plainEvaluate ho.fullEvaluate (yields_liftFault.mp hattrs).1
    obtain ⟨body, hbody, hbody'⟩ := emitAll_renderNodes ho children
      (fun m hm => hn m (mem_walk_of_children hm)) hchildren (depth + 1)
      (isRawTextElement (Text.lower tag))
    refine ⟨_, ?_, Build.toText_emit_element hout' hbody'⟩
    rw [Option.toList_some, Build.toText_emitAll_singleton]
    exact Build.toText_emit_element hout hbody
  | .component tag attrs children selfClosing span => by
    have hdirective : attrs.find? (·.directive.isSome) = none := (hn _ (Node.mem_walk_self _)).2
    -- what a component is made of is computed, but nobody is there to render it
    rw [renderNode] at h
    obtain ⟨props, s₁, -, hrest⟩ := h.bind_inv
    obtain ⟨inner, s₂, -, hrest⟩ := hrest.bind_inv
    obtain ⟨content, s₃, -, hrest⟩ := hrest.bind_inv
    obtain ⟨html, hmarkup, rfl⟩ := hrest.bind_pure_inv
    have hhtml := yields_componentMarkup ho.resolve hdirective hmarkup
    subst hhtml
    refine ⟨Build.componentComment tag, toText_emitAll_raw plain blank depth raw _ _, ?_⟩
    rw [emit, Emission.toText_piece]
    simp

/-- What stands in the place of nodes is written like the nodes. -/
theorem emitAll_renderNodes (ho : Alike plain full r) (ns : List Node)
    (hns : ∀ m ∈ Node.walkAll ns, Common m) {rendered : List Node} {before after : State σ}
    (h : Yields (renderNodes r ns) before rendered after) (depth : Nat) (raw : Bool) :
    ∃ text, (emitAll plain blank depth false raw rendered).toText = .ok text ∧
      (emitAll full r.scope depth false raw ns).toText = .ok text :=
  match ns with
  | [] => by
    rw [renderNodes] at h
    obtain ⟨rfl, -⟩ := yields_pure.mp h
    exact ⟨"", by simp [emitAll], by simp [emitAll]⟩
  | n :: ns => by
    rw [renderNodes] at h
    obtain ⟨here, between, hhere, hrest⟩ := h.bind_inv
    obtain ⟨later, hlater, rfl⟩ := hrest.bind_pure_inv
    rw [Node.walkAll] at hns
    obtain ⟨x, hx, hx'⟩ := emit_renderNode ho n
      (fun m hm => hns m (List.mem_append_left _ hm)) hhere depth raw
    obtain ⟨y, hy, hy'⟩ := emitAll_renderNodes ho ns
      (fun m hm => hns m (List.mem_append_right _ hm)) hlater depth raw
    refine ⟨x ++ y, ?_, ?_⟩
    · rw [Build.emitAll_append]
      exact Emission.toText_append_eq_ok.mpr ⟨x, y, hx, hy, rfl⟩
    · rw [emitAll]
      exact Emission.toText_append_eq_ok.mpr ⟨x, y, hx', hy', rfl⟩

end

end

/-! ## Documents -/

/-- A template holds no nodes that are not in its document. -/
theorem mem_walk_of_template {t : Fragment} {m : Node}
    (h : m ∈ Node.walkAll t.template.children) : m ∈ t.toNode.walk := by
  refine mem_walk_of_children ?_
  obtain ⟨n, hn, hm⟩ := Node.mem_walkAll.mp h
  exact Node.mem_walkAll.mpr ⟨n, (List.mem_filter.mp hn).1, hm⟩

/-- A template has no script left. -/
theorem frontmatter?_template (t : Fragment) : t.template.frontmatter? = none := by
  rw [Fragment.frontmatter?]
  split
  · rename_i code span rest h
    have hmem : Node.frontmatter code span ∈ t.template.children := by simp [h]
    have hkept := (List.mem_filter.mp hmem).2
    cases hkept
  · rfl

/-- **Rendering and building are the same renderer.**  A document without slots and without islands
that is rendered with some names, and without anybody to find its components, is written exactly as
the builder writes it when it evaluates with these names. -/
theorem serialize_renderTemplate {σ : Type} (t : Fragment) (names : Bindings)
    (components : List (String × ComponentRef)) (slots : List (String × String))
    (hslots : ∀ n ∈ t.toNode.walk, isSlot n = false) (hislands : t.hasClientDirectives = false)
    {before after : State σ} {rendered : Fragment}
    (h : Yields (renderTemplate ⟨.ofNames names, components, none, slots⟩ t.template) before
      rendered after) :
    ∃ html, serialize rendered false = .ok html ∧
      Build.markup t.template { Options.default with evaluate := true, context := names } =
        .ok html := by
  have hcommon : ∀ m ∈ Node.walkAll t.template.children, Common m := by
    intro m hm
    have hm' := mem_walk_of_template hm
    refine ⟨hslots m hm', ?_⟩
    have hall := List.any_eq_false.mp hislands m hm'
    simpa using hall
  rw [renderTemplate] at h
  obtain ⟨children, hchildren, rfl⟩ := h.bind_pure_inv
  have ho : Alike { Options.default with pretty := false }
      { Options.default with evaluate := true, context := names }
      (⟨.ofNames names, components, none, slots⟩ : Renderer σ) := ⟨rfl, rfl, rfl, rfl, rfl⟩
  obtain ⟨text, hplain, hfull⟩ := emitAll_renderNodes ho t.template.children hcommon hchildren 0
    false
  refine ⟨text, Build.markup_plain rfl rfl hplain, Build.markup_plain rfl ?_ hfull⟩
  rw [Build.namesFor, frontmatter?_template]
  rfl

/-- A paragraph with a placeholder in its title and its text, and a component. -/
def titled : Fragment :=
  ⟨[.frontmatter "let x = 1" .empty,
    .element "P" [⟨"title", .text "\x7bx\x7d", .empty, none, true⟩]
      [.text "a&b" .empty, .expression "x" .empty false, .component "Card" [] [] true .empty]
      false .empty], .empty⟩

/-- What stands in the place of `titled` when `x` is `<`. -/
def titledRendered : Fragment :=
  ⟨[.element "P" [⟨"title", .text "<", .empty, none, false⟩]
      [.text "a&b" .empty, .raw "&lt;" .empty, .raw "<!-- Component: Card -->" .empty]
      false .empty], .empty⟩

/-- A renderer that knows the one name of `titled`. -/
def titledRenderer : Renderer Unit :=
  ⟨.ofNames [("x", .string "<")], [], none, []⟩

theorem mapM_renderAttr_title {scope : Scope} (h : scope.attrValueOf "x" = .ok (.text "<")) :
    [(⟨"title", .text "\x7bx\x7d", .empty, none, true⟩ : Attr)].mapM (renderAttr scope) =
      .ok [⟨"title", .text "<", .empty, none, false⟩] := by
  have hcode : (⟨"title", .text "\x7bx\x7d", .empty, none, true⟩ : Attr).code = "x" := by decide
  rw [List.mapM_cons, renderAttr, hcode, h]
  rfl

set_option maxRecDepth 4096 in
/-- A document with every kind of placeholder, for which the two ways agree. -/
theorem serialize_renderTemplate_titled :
    (∀ n ∈ titled.toNode.walk, isSlot n = false) ∧ titled.hasClientDirectives = false ∧
      Yields (renderTemplate titledRenderer titled.template) ⟨0, ()⟩ titledRendered ⟨0, ()⟩ ∧
      ∃ html, serialize titledRendered false = .ok html ∧
        Build.markup titled.template
          { Options.default with evaluate := true, context := [("x", .string "<")] } =
            .ok html := by
  have hslots : ∀ n ∈ titled.toNode.walk, isSlot n = false := by decide
  have hrendered :
      Yields (renderTemplate titledRenderer titled.template) ⟨0, ()⟩ titledRendered ⟨0, ()⟩ := by
    have htext : titledRenderer.scope.textOf "x" = .ok "<" := by cbv
    have hvalue : titledRenderer.scope.attrValueOf "x" = .ok (.text "<") := by cbv
    have hslot : (Text.lower "P" == slotTag) = false := by decide
    have hattrs := mapM_renderAttr_title hvalue
    rw [Yields, renderTemplate]
    show (renderNodes _ [.element "P" [⟨"title", .text "\x7bx\x7d", .empty, none, true⟩] _ _ _]
      >>= _).run.run _ = _
    simp only [renderNodes, renderNode, hslot, htext, hattrs, liftFault]
    rfl
  exact ⟨hslots, rfl, hrendered, serialize_renderTemplate titled _ _ _ hslots rfl hrendered⟩

end Render
end Atoll
