import Atoll.Proofs.Canonical
import Atoll.Proofs.Ink
import Atoll.Proofs.Rendering

/-!
# Two layouts of inline content

Pretty output keeps an element on one line if it has nothing but texts and placeholders in it.  The
builder sees the placeholders.  What rendering leaves in their place is raw markup, which is laid
out line by line, so the same element can come out in two layouts.  This file says exactly what
either way of writing gives.

* `Renders` — a step of rendering follows an evaluation: it ends with the same fault, or succeeds
  with a result that is related to the value, and leaves the state alone.
* `toText_emitAll_inline`, `renderNodes_inline` — the builder writes the pieces of inline content,
  and rendering leaves nodes that are written as these pieces.
* `inlineLayout`, `blockLayout` — the two layouts; they differ in blanks only
  (`visible_blockLayout`).
* `markup_element`, `renderTemplate_element`, `serialize_element` — what the builder gives for an
  element with inline content, what rendering leaves of it, and what is written for that.
* `serialize_inline` — hence both ways side by side.
-/

set_option autoImplicit false

namespace Atoll
namespace Render

open Build (Options Emission emit emitAll attrsText block tidy indentAt)
open Atoll.Expr (Fault)
open Markup
open Script (Scope)
open Text (visible)

variable {o : Options} {ns : List Node}

/-! ## Rendering that follows an evaluation -/

section

variable {σ α β γ δ : Type} {x : RenderM σ α} {f : α → RenderM σ γ} {e : Except Fault β}
  {related : α → β → Prop}

/-- The step ends with the fault of the evaluation, or succeeds with something that is related to
its value.  Either way it leaves the state alone. -/
def Renders (x : RenderM σ α) (s : State σ) (e : Except Fault β) (related : α → β → Prop) : Prop :=
  match e with
  | .ok b => ∃ a, Yields x s a s ∧ related a b
  | .error fault => x.run.run s = (.error (.fault fault), s)

theorem renders_pure {a : α} {b : β} (s : State σ) (h : related a b) :
    Renders (pure a : RenderM σ α) s (.ok b) related :=
  ⟨a, yields_pure.mpr ⟨rfl, rfl⟩, h⟩

theorem renders_liftFault {r : Except Fault α} (s : State σ)
    (hok : ∀ a, r = .ok a → ∃ b, e = .ok b ∧ related a b)
    (herror : ∀ fault, r = .error fault → e = .error fault) :
    Renders (liftFault r : RenderM σ α) s e related := by
  cases r with
  | ok a =>
    obtain ⟨b, rfl, hab⟩ := hok a rfl
    exact renders_pure s hab
  | error fault =>
    rw [herror fault rfl]
    rfl

/-- One step after another follows one evaluation after another. -/
theorem Renders.bind {s : State σ} {g : β → Except Fault δ} {related' : γ → δ → Prop}
    (hx : Renders x s e related) (hf : ∀ a b, related a b → Renders (f a) s (g b) related') :
    Renders (x >>= f) s (e >>= g) related' := by
  cases e with
  | error fault =>
    show (x >>= f).run.run s = _
    rw [run_bind, show x.run.run s = _ from hx]
  | ok b =>
    obtain ⟨a, ha, hab⟩ := hx
    have hstep := hf a b hab
    show Renders (x >>= f) s (g b) related'
    cases hg : g b with
    | error fault =>
      rw [hg] at hstep
      show (x >>= f).run.run s = _
      rw [run_bind, show x.run.run s = _ from ha]
      exact hstep
    | ok d =>
      rw [hg] at hstep
      obtain ⟨c, hc, hcd⟩ := hstep
      refine ⟨c, ?_, hcd⟩
      rw [Yields, run_bind, show x.run.run s = _ from ha]
      exact hc

/-- A step behind which nothing is evaluated. -/
theorem Renders.finally {s : State σ} {related' : γ → β → Prop} (hx : Renders x s e related)
    (hf : ∀ a b, related a b → Renders (f a) s (.ok b) related') :
    Renders (x >>= f) s e related' := by
  have hbind := hx.bind hf
  cases e with
  | error fault => exact hbind
  | ok b => exact hbind

end

/-! ## Inline content -/

/-- What is written of a text or a placeholder in an element.  In a raw-text element texts are not
escaped. -/
def inlineText (scope : Scope) (raw : Bool) : Node → Except Fault String
  | .text value _ => .ok (if raw then value else escapeText value)
  | .expression code _ _ => (scope.textOf code).map escapeHtml
  | _ => .ok ""

/-- **The builder writes the pieces of inline content one behind the other.** -/
theorem toText_emitAll_inline (hescape : o.escape = true) (hevaluate : o.evaluate = true)
    (scope : Scope) (depth : Nat) (raw : Bool) (h : ns.all Node.isInline = true) :
    (emitAll o scope depth false raw ns).toText =
      (ns.mapM (inlineText scope raw)).map String.join := by
  induction ns with
  | nil =>
    rw [emitAll, Emission.toText_nothing]
    rfl
  | cons n ns ih =>
    rw [List.all_cons, Bool.and_eq_true] at h
    have hnode : (emit o scope depth false raw n).toText = inlineText scope raw n := by
      cases n with
      | text value span =>
        rw [emit, Emission.toText_piece, Build.textPiece, Build.block_plain, hescape, inlineText]
        cases raw <;> rfl
      | expression code span incomplete =>
        rw [emit, Emission.toText_ofExcept, Build.expressionPiece, hevaluate, hescape, inlineText]
        cases scope.textOf code <;> rfl
      | _ => cases h.1
    rw [emitAll, Emission.toText_append, hnode, ih h.2, List.mapM_cons]
    cases inlineText scope raw n with
    | error fault => rfl
    | ok piece =>
      cases ns.mapM (inlineText scope raw) with
      | error fault => rfl
      | ok pieces => simp [Except.bind, Except.map, bind, pure, Except.pure]

/-- A node that is left by rendering, and the piece that it is written as. -/
inductive IsPiece (raw : Bool) : Node → String → Prop where
  | text (value : String) (span : Span) :
    IsPiece raw (.text value span) (if raw then value else escapeText value)
  | markup (value : String) (span : Span) : IsPiece raw (.raw value span) value

/-- Rendering leaves a text, and raw markup in the place of a placeholder. -/
theorem renderNode_inline {σ : Type} (r : Renderer σ) (raw : Bool) (s : State σ) {n : Node}
    (h : n.isInline = true) :
    Renders (renderNode r n) s (inlineText r.scope raw n) fun here piece =>
      ∃ m, here = some m ∧ IsPiece raw m piece ∧ m.isInline = n.isText := by
  cases n with
  | text value span =>
    rw [renderNode, inlineText]
    exact renders_pure s ⟨_, rfl, .text value span, rfl⟩
  | expression code span incomplete =>
    rw [renderNode, inlineText]
    cases htext : r.scope.textOf code with
    | error fault => rfl
    | ok text => exact ⟨_, rfl, _, rfl, .markup _ span, rfl⟩
  | _ => cases h

/-- **Rendering leaves nodes that are written as the pieces of inline content.**  They are inline
content again if there was no placeholder. -/
theorem renderNodes_inline {σ : Type} (r : Renderer σ) (raw : Bool) (s : State σ)
    (h : ns.all Node.isInline = true) :
    Renders (renderNodes r ns) s (ns.mapM (inlineText r.scope raw)) fun rendered pieces =>
      List.Forall₂ (IsPiece raw) rendered pieces ∧ rendered.length = ns.length ∧
        rendered.all Node.isInline = ns.all Node.isText := by
  induction ns with
  | nil =>
    rw [renderNodes]
    exact renders_pure s ⟨.nil, rfl, rfl⟩
  | cons n ns ih =>
    rw [List.all_cons, Bool.and_eq_true] at h
    rw [renderNodes, List.mapM_cons]
    refine (renderNode_inline r raw s h.1).bind ?_
    rintro _ piece ⟨m, rfl, hm, hinline⟩
    refine (ih h.2).bind ?_
    rintro rendered pieces ⟨hrendered, hlength, hall⟩
    refine renders_pure s ⟨.cons hm hrendered, congrArg (· + 1) hlength, ?_⟩
    rw [List.all_cons, ← hall, ← hinline]
    rfl

/-- What rendering has left is written in blocks when output is pretty. -/
theorem toText_emitAll_pieces (hescape : o.escape = true) (scope : Scope) (depth : Nat)
    (pretty : Bool) {raw : Bool} {pieces : List String} (h : List.Forall₂ (IsPiece raw) ns pieces) :
    (emitAll o scope depth pretty raw ns).toText =
      .ok (String.join (pieces.map (block · (indentAt o depth pretty) pretty))) := by
  induction h with
  | nil => rw [emitAll, Emission.toText_nothing, List.map_nil, String.join_nil]
  | cons hpiece _ ih =>
    rw [emitAll, Emission.toText_append, ih, List.map_cons, String.join_cons]
    cases hpiece with
    | text value span =>
      rw [emit, Emission.toText_piece, Build.textPiece, hescape]
      cases raw <;> rfl
    | markup value span =>
      rw [emit, Emission.toText_piece]
      rfl

/-! ## Attributes -/

/-- Attributes that cannot be rendered cannot be written, for the same reason. -/
theorem attrsText_of_error (hevaluate : o.evaluate = true) {scope : Scope} {attrs : List Attr}
    {fault : Fault} (h : attrs.mapM (renderAttr scope) = .error fault) :
    attrsText o scope attrs = .error fault := by
  induction attrs with
  | nil => cases h
  | cons a attrs ih =>
    have hvalue : Build.attrValue o scope a = (renderAttr scope a).map (·.value) := by
      rw [Build.attrValue, renderAttr, hevaluate, Bool.and_true]
      split
      · cases scope.attrValueOf a.code <;> rfl
      · rfl
    rw [List.mapM_cons] at h
    rw [attrsText, hvalue]
    cases ha : renderAttr scope a with
    | error fault' =>
      rw [ha] at h
      cases h
      rfl
    | ok b =>
      rw [ha] at h
      cases hrest : attrs.mapM (renderAttr scope) with
      | error fault' =>
        rw [hrest] at h
        cases h
        rw [ih hrest]
        rfl
      | ok bs =>
        rw [hrest] at h
        cases h

/-! ## The two layouts -/

/-- An element with its content as it is. -/
def inlineLayout (tag attrs : String) (pieces : List String) : String :=
  "<" ++ tag ++ attrs ++ ">" ++ String.join pieces ++ "</" ++ tag ++ ">\n"

/-- An element with every piece of its content on a line of its own, trimmed and indented.  Blank
pieces are left out. -/
def blockLayout (tag attrs : String) (pieces : List String) : String :=
  "<" ++ tag ++ attrs ++ ">\n" ++ String.join (pieces.map (block · Build.Indent.standard true)) ++
    "</" ++ tag ++ ">\n"

/-- **The layouts differ in blanks only.** -/
theorem visible_blockLayout (tag attrs : String) (pieces : List String) :
    visible (blockLayout tag attrs pieces) = visible (inlineLayout tag attrs pieces) := by
  have hpieces : visible (String.join (pieces.map (block · Build.Indent.standard true))) =
      visible (String.join pieces) := by
    induction pieces with
    | nil => rfl
    | cons piece pieces ih =>
      rw [List.map_cons, String.join_cons, String.join_cons, Text.visible_append,
        Text.visible_append, ih, Build.visible_block rfl]
  have hopening : visible ">\n" = visible ">" := rfl
  simp only [blockLayout, inlineLayout, Text.visible_append, hpieces, hopening]

/-- The markup of a document with a single node, when output is pretty. -/
theorem markup_single {n : Node} {outer : Span} {names : Bindings} (hpretty : o.pretty = true)
    (hfault : o.fault? = none) (hnames : Build.namesFor ⟨[n], outer⟩ o = .ok names) :
    Build.markup ⟨[n], outer⟩ o = (emit o (.ofNames names) 0 true false n).toText.map tidy := by
  have hfinish : Build.finish o = tidy := by
    funext html
    rw [Build.finish, hpretty, if_pos rfl]
  rw [Build.markup, hfinish, Build.emission, hnames, hfault, hpretty]
  show (emit o (.ofNames names) 0 true false (.fragment [n] outer)).toText.map tidy = _
  rw [emit, Build.toText_emitAll_singleton]

theorem indentAt_standard {o : Options} (h : o.indent = .text Build.Indent.standard) :
    indentAt o 0 true = "" := by
  rw [indentAt, h]
  rfl

section

variable {o : Options} {scope : Scope} {tag out : String} {attrs : List Attr}
  {children : List Node} {span : Span} {raw : Bool}
  (hindent : o.indent = .text Build.Indent.standard) (hattrs : attrsText o scope attrs = .ok out)
  (hvoid : isVoidElement (Text.lower tag) = false) (hne : children ≠ [])
include hindent hattrs hvoid hne

/-- An element on one line. -/
theorem toText_emit_inline (hinline : children.all Node.isInline = true) :
    (emit o scope 0 true raw (.element tag attrs children false span)).toText =
      (emitAll o scope 0 false (isRawTextElement (Text.lower tag)) children).toText.map fun body =>
        "<" ++ Text.lower tag ++ out ++ ">" ++ body ++ "</" ++ Text.lower tag ++ ">\n" := by
  have hempty : children.isEmpty = false := by simpa using hne
  have hend : Build.lineEnd true = "\n" := rfl
  rw [emit]
  simp only [hattrs, hvoid, hempty, hinline, indentAt_standard hindent, hend, Bool.and_self,
    Bool.false_eq_true, if_false, if_true, Emission.toText_ofExcept, String.empty_append,
    String.append_assoc]
  rfl

/-- An element with its content on lines of their own. -/
theorem toText_emit_block (hinline : children.all Node.isInline = false) {body : String}
    (hbody : (emitAll o scope 1 true (isRawTextElement (Text.lower tag)) children).toText =
      .ok body) :
    (emit o scope 0 true raw (.element tag attrs children false span)).toText =
      .ok ("<" ++ Text.lower tag ++ out ++ ">\n" ++ body ++ "</" ++ Text.lower tag ++ ">\n") := by
  have hempty : children.isEmpty = false := by simpa using hne
  have hend : Build.lineEnd true = "\n" := rfl
  rw [emit]
  simp only [hattrs, hvoid, hempty, hinline, indentAt_standard hindent, hend, Bool.and_false,
    Bool.false_eq_true, if_false, Emission.toText_append, Emission.toText_piece, hbody,
    Except.bind, Except.map, String.empty_append, String.append_assoc]
  rfl

end

/-! ## Both ways of writing an element -/

/-- The attributes and the pieces that an element with inline content is written with. -/
def inlineParts (scope : Scope) (raw : Bool) (attrs : List Attr) (children : List Node) :
    Except Fault (String × List String) := do
  let out ← attrsText { Options.default with evaluate := true } scope attrs
  let pieces ← children.mapM (inlineText scope raw)
  .ok (out, pieces)

/-- **The builder keeps inline content as it is.** -/
theorem markup_element (hpretty : o.pretty = true) (hescape : o.escape = true)
    (hevaluate : o.evaluate = true) (hindent : o.indent = .text Build.Indent.standard)
    {tag : String} (attrs : List Attr) {children : List Node} (span outer : Span)
    (hvoid : isVoidElement (Text.lower tag) = false) (hne : children ≠ [])
    (hinline : children.all Node.isInline = true) :
    Build.markup ⟨[.element tag attrs children false span], outer⟩ o =
      (inlineParts (.ofNames o.context) (isRawTextElement (Text.lower tag)) attrs children).map
        fun parts => tidy (inlineLayout (Text.lower tag) parts.1 parts.2) := by
  have hfault : o.fault? = none := by simp [Options.fault?, hindent, Build.Indent.isUsable]
  have hnames : Build.namesFor ⟨[.element tag attrs children false span], outer⟩ o =
      .ok o.context := by
    rw [Build.namesFor, hevaluate]
    rfl
  have hcongr : attrsText { Options.default with evaluate := true } (.ofNames o.context) attrs =
      attrsText o (.ofNames o.context) attrs :=
    Build.attrsText_congr hevaluate.symm _ attrs
  rw [markup_single hpretty hfault hnames, inlineParts, hcongr]
  cases hattrs : attrsText o (.ofNames o.context) attrs with
  | error fault =>
    rw [emit, hattrs]
    rfl
  | ok out =>
    rw [toText_emit_inline hindent hattrs hvoid hne hinline,
      toText_emitAll_inline hescape hevaluate _ _ _ hinline]
    cases children.mapM (inlineText (.ofNames o.context) (isRawTextElement (Text.lower tag))) with
    | error fault => rfl
    | ok pieces => rfl

/-- An element in the place of another with inline content, and the parts that it is written
with. -/
structure Replaces (raw : Bool) (children : List Node) (attrs' : List Attr)
    (children' : List Node) (parts : String × List String) : Prop where
  attrs : attrsText { Options.default with pretty := true } (.ofNames []) attrs' = .ok parts.1
  pieces : List.Forall₂ (IsPiece raw) children' parts.2
  length : children'.length = children.length
  inline : children'.all Node.isInline = children.all Node.isText

section

variable {σ : Type} (r : Renderer σ) (s : State σ) {tag : String} {children : List Node}

/-- **Rendering an element with inline content** takes its attributes first, and then the content
piece by piece, as the builder does. -/
theorem renderNode_element (raw : Bool) (attrs : List Attr) (span : Span)
    (hslot : (Text.lower tag == slotTag) = false) (hinline : children.all Node.isInline = true) :
    Renders (renderNode r (.element tag attrs children false span)) s
      (inlineParts r.scope raw attrs children) fun here parts => ∃ attrs' children',
        here = some (.element tag attrs' children' false span) ∧
          Replaces raw children attrs' children' parts := by
  have hplain : ({ Options.default with pretty := true } : Options).evaluate = false := rfl
  have hfull : ({ Options.default with evaluate := true } : Options).evaluate = true := rfl
  have hattrs : Renders (liftFault (attrs.mapM (renderAttr r.scope)) : RenderM σ _) s
      (attrsText { Options.default with evaluate := true } r.scope attrs) fun attrs' out =>
        attrsText { Options.default with pretty := true } (.ofNames []) attrs' = .ok out := by
    refine renders_liftFault s (fun attrs' hattrs' => ?_) fun fault hfault =>
      attrsText_of_error hfull hfault
    obtain ⟨out, hout, hout'⟩ := attrsText_renderAttr hplain hfull hattrs'
    exact ⟨out, hout', hout⟩
  rw [renderNode, hslot]
  refine hattrs.bind fun attrs' out hout => (renderNodes_inline r raw s hinline).bind ?_
  rintro children' pieces ⟨hpieces, hlength, hall⟩
  exact renders_pure s ⟨attrs', children', rfl, hout, hpieces, hlength, hall⟩

theorem renderTemplate_element (raw : Bool) (attrs : List Attr) (span outer : Span)
    (hslot : (Text.lower tag == slotTag) = false) (hinline : children.all Node.isInline = true) :
    Renders (renderTemplate r ⟨[.element tag attrs children false span], outer⟩) s
      (inlineParts r.scope raw attrs children) fun rendered parts => ∃ attrs' children',
        rendered = ⟨[.element tag attrs' children' false span], outer⟩ ∧
          Replaces raw children attrs' children' parts := by
  have hnodes : Renders (renderNodes r [.element tag attrs children false span]) s
      (inlineParts r.scope raw attrs children) fun nodes parts => ∃ attrs' children',
        nodes = [.element tag attrs' children' false span] ∧
          Replaces raw children attrs' children' parts := by
    rw [renderNodes, renderNodes]
    refine (renderNode_element r s raw attrs span hslot hinline).finally ?_
    rintro _ parts ⟨attrs', children', rfl, h⟩
    exact ⟨_, rfl, attrs', children', rfl, h⟩
  rw [renderTemplate]
  refine hnodes.finally ?_
  rintro _ parts ⟨attrs', children', rfl, h⟩
  exact renders_pure s ⟨attrs', children', rfl, h⟩

end

/-- **What rendering leaves is written line by line**, unless it is all text. -/
theorem serialize_element {tag : String} {attrs' : List Attr} {children children' : List Node}
    {span outer : Span} {parts : String × List String}
    (hvoid : isVoidElement (Text.lower tag) = false) (hne : children ≠ [])
    (h : Replaces (isRawTextElement (Text.lower tag)) children attrs' children' parts) :
    serialize ⟨[.element tag attrs' children' false span], outer⟩ true =
      .ok (tidy (if children.all Node.isText then inlineLayout (Text.lower tag) parts.1 parts.2
        else blockLayout (Text.lower tag) parts.1 parts.2)) := by
  have hne' : children' ≠ [] := by
    rintro rfl
    exact hne (List.length_eq_zero_iff.1 h.length.symm)
  have hinline := h.inline
  rw [serialize, markup_single rfl rfl rfl]
  cases htexts : children.all Node.isText with
  | true =>
    rw [htexts] at hinline
    have hplain : parts.2.map (block · "" false) = parts.2 := List.map_id _
    rw [toText_emit_inline rfl h.attrs hvoid hne' hinline,
      toText_emitAll_pieces rfl _ _ false h.pieces, Build.indentAt_plain, hplain]
    rfl
  | false =>
    rw [htexts] at hinline
    rw [toText_emit_block rfl h.attrs hvoid hne' hinline
      (toText_emitAll_pieces rfl _ _ true h.pieces)]
    rfl

/-- **Two layouts of inline content.**  An element that is the only node of a template, and has
texts and placeholders in it and nothing else, is built and rendered with the same faults.  Without
a fault the builder keeps its content as it is.  Rendered and then written it comes out the same if
there is no placeholder in it, and line by line if there is one; but for blanks this is the same
text. -/
theorem serialize_inline {σ : Type} (tag : String) (attrs : List Attr) (children : List Node)
    (span outer : Span) (names : Bindings) (components : List (String × ComponentRef))
    (resolve : Option (Resolver σ)) (slots : List (String × String)) (s : State σ)
    (hslot : (Text.lower tag == slotTag) = false)
    (hvoid : isVoidElement (Text.lower tag) = false) (hne : children ≠ [])
    (hinline : children.all Node.isInline = true) :
    (∃ fault, Build.markup ⟨[.element tag attrs children false span], outer⟩
          { Options.default with pretty := true, evaluate := true, context := names } =
        .error fault ∧
      (renderTemplate ⟨.ofNames names, components, resolve, slots⟩
          ⟨[.element tag attrs children false span], outer⟩).run.run s =
        (.error (.fault fault), s)) ∨
    ∃ out pieces rendered built written,
      inlineParts (.ofNames names) (isRawTextElement (Text.lower tag)) attrs children =
        .ok (out, pieces) ∧
      Build.markup ⟨[.element tag attrs children false span], outer⟩
          { Options.default with pretty := true, evaluate := true, context := names } =
        .ok built ∧
      Yields (renderTemplate ⟨.ofNames names, components, resolve, slots⟩
        ⟨[.element tag attrs children false span], outer⟩) s rendered s ∧
      serialize rendered true = .ok written ∧
      built = tidy (inlineLayout (Text.lower tag) out pieces) ∧
      written = tidy (if children.all Node.isText
        then inlineLayout (Text.lower tag) out pieces
        else blockLayout (Text.lower tag) out pieces) ∧
      visible written = visible built := by
  have hbuild := markup_element
    (o := { Options.default with pretty := true, evaluate := true, context := names }) rfl rfl rfl
    rfl attrs span outer hvoid hne hinline
  have hrender := renderTemplate_element
    (⟨.ofNames names, components, resolve, slots⟩ : Renderer σ) s
    (isRawTextElement (Text.lower tag)) attrs span outer hslot hinline
  cases hparts : inlineParts (.ofNames names) (isRawTextElement (Text.lower tag)) attrs
      children with
  | error fault =>
    rw [hparts] at hbuild hrender
    exact .inl ⟨fault, hbuild, hrender⟩
  | ok parts =>
    rw [hparts] at hbuild hrender
    obtain ⟨_, hyields, attrs', children', rfl, hreplaces⟩ := hrender
    refine .inr ⟨parts.1, parts.2, _, _, _, rfl, hbuild, hyields,
      serialize_element hvoid hne hreplaces, rfl, rfl, ?_⟩
    rw [Build.visible_tidy, Build.visible_tidy]
    split
    · rfl
    · exact visible_blockLayout _ _ _

/-- A greeting with a placeholder. -/
def greeting : Node :=
  .element "p" [] [.text "Hello " .empty, .expression "name" .empty false] false .empty

/-- What stands in the place of `greeting` when the name is `x`. -/
def greeted : Node :=
  .element "p" [] [.text "Hello " .empty, .raw "x" .empty] false .empty

/-- A renderer that knows the name. -/
def greeter : Renderer Unit :=
  ⟨.ofNames [("name", .string "x")], [], none, []⟩

set_option maxRecDepth 4096 in
theorem textOf_greeter : greeter.scope.textOf "name" = .ok "x" := by
  cbv

set_option maxRecDepth 4096 in
theorem markup_greeting :
    Build.markup ⟨[greeting], .empty⟩ { Options.default with
        pretty := true, evaluate := true, context := [("name", .string "x")] } =
      .ok "<p>Hello x</p>\n" := by
  have hpieces : [Node.text "Hello " .empty, .expression "name" .empty false].mapM
      (inlineText greeter.scope (isRawTextElement (Text.lower "p"))) = .ok ["Hello ", "x"] := by
    simp only [List.mapM_cons, inlineText, textOf_greeter]
    rfl
  refine (markup_element rfl rfl rfl rfl [] .empty .empty (by decide) (by simp) rfl).trans ?_
  show ([Node.text "Hello " .empty, .expression "name" .empty false].mapM
    (inlineText greeter.scope (isRawTextElement (Text.lower "p"))) >>= fun pieces =>
      .ok ("", pieces)).map _ = _
  rw [hpieces]
  rfl

set_option maxRecDepth 4096 in
/-- The greeting is rendered and written without a fault. -/
theorem serialize_inline_greeting :
    (Text.lower "p" == slotTag) = false ∧ isVoidElement (Text.lower "p") = false ∧
      [Node.text "Hello " .empty, .expression "name" .empty false].all Node.isInline = true ∧
      ∃ rendered written, Yields (renderTemplate greeter ⟨[greeting], .empty⟩) ⟨0, ()⟩ rendered
          ⟨0, ()⟩ ∧
        serialize rendered true = .ok written ∧ visible written = "<p>Hellox</p>" := by
  have hslot : (Text.lower "p" == slotTag) = false := by decide
  have hvoid : isVoidElement (Text.lower "p") = false := by decide
  refine ⟨hslot, hvoid, rfl, ?_⟩
  rcases serialize_inline "p" [] [.text "Hello " .empty, .expression "name" .empty false] .empty
      .empty [("name", .string "x")] [] none [] (⟨0, ()⟩ : State Unit) hslot hvoid (by simp) rfl
    with ⟨fault, hfault, -⟩ |
      ⟨_, _, rendered, built, written, -, hbuilt, hyields, hwritten, -, -, hsame⟩
  · cases markup_greeting.symm.trans hfault
  · refine ⟨rendered, written, hyields, hwritten, hsame.trans ?_⟩
    rw [← Except.ok.inj (markup_greeting.symm.trans hbuilt)]
    rfl

set_option maxRecDepth 4096 in
/-- What the builder keeps on one line is broken into four when it is rendered first. -/
theorem serialize_greeting :
    Build.markup ⟨[greeting], .empty⟩ { Options.default with
        pretty := true, evaluate := true, context := [("name", .string "x")] } =
      .ok "<p>Hello x</p>\n" ∧
    Yields (renderTemplate greeter ⟨[greeting], .empty⟩) ⟨0, ()⟩ ⟨[greeted], .empty⟩ ⟨0, ()⟩ ∧
    serialize ⟨[greeted], .empty⟩ true = .ok "<p>\n  Hello\n  x\n</p>\n" := by
  refine ⟨markup_greeting, ?_, rfl⟩
  have hslot : (Text.lower "p" == slotTag) = false := by decide
  rw [Yields, renderTemplate]
  simp only [greeting, renderNodes, renderNode, hslot, textOf_greeter, liftFault]
  rfl

end Render
end Atoll
