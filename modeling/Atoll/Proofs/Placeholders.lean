import Atoll.Proofs.Emission
import Atoll.Proofs.Tightening
import Mathlib.Data.List.Infix

/-!
# Comments in the place of placeholders

When nothing is evaluated, a comment with the code of a placeholder stands in its place.  Here an
output is taken apart into its markup and these comments.

* `isComment_placeholder` — such a text is one comment exactly if the code has no closing mark.
* `fills_emit` — **the codes stand in their comments and nowhere else**: the markup around them is
  the same whatever they are.
* `exists_parts_tightened` — cleaning an output up cleans its parts up.
* `compile_placeholders` — all of this for the output of a source text.
-/

set_option autoImplicit false

namespace Atoll

namespace Markup

/-! ## Placeholders of a document -/

mutual

/-- The codes of the placeholders that a node shows.  Components show none of what they hold, and
neither do void and self-closing elements. -/
def Node.shownCodes : Node → List String
  | .expression code _ _ => [code]
  | .element tag _ children selfClosing _ =>
    if isVoidElement (Text.lower tag) || selfClosing then [] else shownCodesAll children
  | .fragment children _ => shownCodesAll children
  | _ => []

/-- `Node.shownCodes` on lists. -/
def Node.shownCodesAll : List Node → List String
  | [] => []
  | n :: ns => n.shownCodes ++ shownCodesAll ns

end

mutual

/-- A node with other code in its placeholders. -/
def Node.mapCodes (σ : String → String) : Node → Node
  | .expression code span incomplete => .expression (σ code) span incomplete
  | .element tag attrs children selfClosing span =>
    .element tag attrs (mapCodesAll σ children) selfClosing span
  | .component tag attrs children selfClosing span =>
    .component tag attrs (mapCodesAll σ children) selfClosing span
  | .fragment children span => .fragment (mapCodesAll σ children) span
  | .text value span => .text value span
  | .raw value span => .raw value span
  | .frontmatter code span => .frontmatter code span

/-- `Node.mapCodes` on lists. -/
def Node.mapCodesAll (σ : String → String) : List Node → List Node
  | [] => []
  | n :: ns => n.mapCodes σ :: mapCodesAll σ ns

end

/-- A document with other code in its placeholders. -/
def Fragment.mapCodes (σ : String → String) (f : Fragment) : Fragment :=
  ⟨Node.mapCodesAll σ f.children, f.span⟩

mutual

theorem Node.mapCodes_id : (n : Node) → n.mapCodes id = n
  | .expression code span incomplete => rfl
  | .element tag attrs children selfClosing span => by rw [mapCodes, mapCodesAll_id]
  | .component tag attrs children selfClosing span => by rw [mapCodes, mapCodesAll_id]
  | .fragment children span => by rw [mapCodes, mapCodesAll_id]
  | .text value span => rfl
  | .raw value span => rfl
  | .frontmatter code span => rfl

theorem Node.mapCodesAll_id : (ns : List Node) → mapCodesAll id ns = ns
  | [] => rfl
  | n :: ns => by rw [mapCodesAll, Node.mapCodes_id, mapCodesAll_id]

end

theorem Fragment.mapCodes_id (f : Fragment) : f.mapCodes id = f := by
  rw [mapCodes, Node.mapCodesAll_id]

theorem Node.isEmpty_mapCodesAll (σ : String → String) (ns : List Node) :
    (mapCodesAll σ ns).isEmpty = ns.isEmpty := by
  cases ns <;> rfl

theorem Node.isInline_mapCodes (σ : String → String) (n : Node) :
    (n.mapCodes σ).isInline = n.isInline := by
  cases n <;> rfl

theorem Node.all_isInline_mapCodesAll (σ : String → String) (ns : List Node) :
    (mapCodesAll σ ns).all isInline = ns.all isInline := by
  induction ns with
  | nil => rfl
  | cons n ns ih => rw [mapCodesAll, List.all_cons, ih, isInline_mapCodes, List.all_cons]

end Markup

namespace Build

open Markup Text
open Script (Scope)

variable {o : Options}

/-! ## Comments -/

/-- The comment in the place of a placeholder. -/
def placeholder (code : String) : String :=
  "<!-- Expression: " ++ code ++ " -->"

-- stated by hand: rewriting with the definition itself would evaluate its literals
theorem placeholder_eq (code : String) :
    placeholder code = "<!-- Expression: " ++ code ++ " -->" := rfl

/-- A text is one comment: it starts with an opening mark, and the first closing mark behind that
one is at its end. -/
def IsComment (text : String) : Prop :=
  ∃ body, text.toList = "<!--".toList ++ body ++ "-->".toList ∧
    ¬"-->".toList <:+: body ++ "--".toList

theorem toList_placeholder (code : String) : (placeholder code).toList =
    "<!--".toList ++ (" Expression: ".toList ++ code.toList ++ " ".toList) ++ "-->".toList := by
  have hmarks : placeholder code = "<!--" ++ " Expression: " ++ code ++ (" " ++ "-->") := rfl
  simp only [hmarks, String.toList_append, List.append_assoc]

/-- **A placeholder is one comment exactly if its code has no closing mark in it.** -/
theorem isComment_placeholder (code : String) :
    IsComment (placeholder code) ↔ ¬"-->".toList <:+: code.toList := by
  -- the blanks around the code keep every mark on one side of them
  have hmarks : "-->".toList <:+:
      " Expression: ".toList ++ code.toList ++ " ".toList ++ "--".toList ↔
      "-->".toList <:+: code.toList := by
    have hsplit : " Expression: ".toList ++ code.toList ++ " ".toList ++ "--".toList =
        " Expression:".toList ++ ' ' :: (code.toList ++ ' ' :: "--".toList) := by
      have hopening : " Expression: ".toList = " Expression:".toList ++ [' '] := by decide
      have hspace : " ".toList = [' '] := by decide
      rw [hopening, hspace]
      simp only [List.append_assoc, List.cons_append, List.nil_append]
    have hbefore : ¬"-->".toList <:+: " Expression:".toList := by decide
    have hbehind : ¬"-->".toList <:+: "--".toList := by decide
    rw [hsplit, infix_append_cons (by decide), infix_append_cons (by decide),
      or_iff_right hbefore, or_iff_left hbehind]
  rw [IsComment, ← hmarks]
  constructor
  · rintro ⟨body, htext, hnone⟩
    rw [toList_placeholder] at htext
    have hbody := List.append_cancel_left (List.append_cancel_right htext)
    rwa [hbody]
  · exact fun hnone => ⟨_, toList_placeholder code, hnone⟩

/-! ## Parts of an output -/

/-- A part of an output: markup, or the comment in the place of a placeholder. -/
inductive Part where
  | markup (text : String)
  | placeholder (code : String)
  deriving DecidableEq, Repr

namespace Part

/-- The text of a part, with the given code in the place of its own. -/
def text (σ : String → String) : Part → String
  | markup text => text
  | placeholder code => Build.placeholder (σ code)

/-- The texts of parts one behind the other. -/
def join (σ : String → String) (parts : List Part) : String :=
  String.join (parts.map (text σ))

/-- The code of a part that is a comment. -/
def code? : Part → Option String
  | markup _ => none
  | placeholder code => some code

/-- The codes of the comments among the parts. -/
def codes (parts : List Part) : List String :=
  parts.filterMap code?

@[simp] theorem join_nil (σ : String → String) : join σ [] = "" := rfl

@[simp] theorem join_cons (σ : String → String) (p : Part) (parts : List Part) :
    join σ (p :: parts) = p.text σ ++ join σ parts := by
  simp [join]

@[simp] theorem join_append (σ : String → String) (parts more : List Part) :
    join σ (parts ++ more) = join σ parts ++ join σ more := by
  simp [join, String.join_append]

@[simp] theorem codes_nil : codes [] = [] := rfl

@[simp] theorem codes_markup (text : String) (parts : List Part) :
    codes (markup text :: parts) = codes parts := rfl

@[simp] theorem codes_placeholder (code : String) (parts : List Part) :
    codes (placeholder code :: parts) = code :: codes parts := rfl

@[simp] theorem codes_append (parts more : List Part) :
    codes (parts ++ more) = codes parts ++ codes more :=
  List.filterMap_append

end Part

theorem expressionPiece_plain (ho : o.evaluate = false) (scope : Scope) (code indent : String)
    (pretty : Bool) :
    expressionPiece o scope code indent pretty =
      .ok (indent ++ (placeholder code ++ lineEnd pretty)) := by
  simp only [expressionPiece, ho, Bool.not_false, if_true]
  simp only [placeholder_eq, String.append_assoc]

/-- **Codes stand in comments of their own.**  Whatever codes are put in the place of its own, the
emission has the same markup with a comment for each of them. -/
def Fills (e : (String → String) → Emission String) (codes : List String) : Prop :=
  ∃ parts, Part.codes parts = codes ∧ ∀ σ, (e σ).toText = .ok (Part.join σ parts)

namespace Fills

theorem nothing : Fills (fun _ => .nothing) [] :=
  ⟨[], rfl, fun _ => rfl⟩

theorem piece (text : String) : Fills (fun _ => .piece text) [] :=
  ⟨[.markup text], rfl, fun σ => by simp [Part.text]⟩

theorem append {a b : (String → String) → Emission String} {codes more : List String}
    (ha : Fills a codes) (hb : Fills b more) : Fills (fun σ => a σ ++ b σ) (codes ++ more) := by
  obtain ⟨parts, hcodes, hparts⟩ := ha
  obtain ⟨parts', hcodes', hparts'⟩ := hb
  refine ⟨parts ++ parts', ?_, fun σ => ?_⟩
  · rw [Part.codes_append, hcodes, hcodes']
  · rw [Emission.toText_append, hparts, hparts', Part.join_append]
    rfl

/-- An emission as one piece between two texts. -/
theorem wrapped {e : (String → String) → Emission String} {codes : List String}
    (h : Fills e codes) (opening closing : String) :
    Fills (fun σ => .ofExcept ((e σ).toText.map fun body => opening ++ body ++ closing))
      codes := by
  obtain ⟨parts, hcodes, hparts⟩ := h
  refine ⟨.markup opening :: parts ++ [.markup closing], ?_, fun σ => ?_⟩
  · simp [hcodes]
  · rw [Emission.toText_ofExcept, hparts]
    simp [Except.map, Part.text, String.append_assoc]

theorem expression (ho : o.evaluate = false) (scope : Scope) (code indent : String)
    (pretty : Bool) :
    Fills (fun σ => .ofExcept (expressionPiece o scope (σ code) indent pretty)) [code] := by
  refine ⟨[.markup indent, .placeholder code, .markup (lineEnd pretty)], rfl, fun σ => ?_⟩
  rw [Emission.toText_ofExcept, expressionPiece_plain ho]
  simp [Part.text]

end Fills

theorem exists_attrsText (ho : o.evaluate = false) (scope : Scope)
    (attrs : List Attr) : ∃ text, attrsText o scope attrs = .ok text := by
  induction attrs with
  | nil => exact ⟨"", rfl⟩
  | cons a attrs ih =>
    obtain ⟨text, htext⟩ := ih
    rw [attrsText, attrValue, ho, Bool.and_false, if_neg Bool.false_ne_true, htext]
    exact ⟨_, rfl⟩

mutual

/-- **The codes of a node stand in their comments and nowhere else.** -/
theorem fills_emit {o : Options} (ho : o.evaluate = false) (scope : Scope) :
    (n : Node) → (depth : Nat) → (pretty raw : Bool) →
      Fills (fun σ => emit o scope depth pretty raw (n.mapCodes σ)) n.shownCodes
  | .fragment children _, depth, pretty, raw => by
    simp only [Node.mapCodes, emit, Node.shownCodes]
    exact fills_emitAll ho scope children depth pretty raw
  | .frontmatter _ _, _, _, _ => by
    simp only [Node.mapCodes, emit, Node.shownCodes]
    exact .nothing
  | .text value _, depth, pretty, raw => by
    simp only [Node.mapCodes, emit, Node.shownCodes]
    exact .piece _
  | .expression code _ _, depth, pretty, raw => by
    simp only [Node.mapCodes, emit, Node.shownCodes]
    exact .expression ho scope code _ pretty
  | .raw value _, depth, pretty, raw => by
    simp only [Node.mapCodes, emit, Node.shownCodes]
    exact .piece _
  | .component tag _ _ _ _, depth, pretty, raw => by
    simp only [Node.mapCodes, emit, Node.shownCodes]
    exact .piece _
  | .element tag attrs children selfClosing _, depth, pretty, raw => by
    obtain ⟨attrsOut, hattrs⟩ := exists_attrsText ho scope attrs
    simp only [Node.mapCodes, emit, hattrs, Node.shownCodes, Node.isEmpty_mapCodesAll,
      Node.all_isInline_mapCodesAll]
    cases isVoidElement (Text.lower tag) with
    | true => exact .piece _
    | false =>
      cases selfClosing with
      | true => exact .piece _
      | false =>
        simp only [Bool.false_or, Bool.false_eq_true, if_false]
        split
        · rename_i hempty
          rw [List.isEmpty_iff.1 hempty]
          exact .piece _
        split
        · have hbody := fills_emitAll ho scope children 0 false (isRawTextElement (Text.lower tag))
          simpa only [String.append_assoc] using hbody.wrapped
            (indentAt o depth pretty ++ "<" ++ Text.lower tag ++ attrsOut ++ ">")
            ("</" ++ Text.lower tag ++ ">" ++ lineEnd pretty)
        · have hbody := fills_emitAll ho scope children (depth + 1) pretty
            (isRawTextElement (Text.lower tag))
          simpa using ((Fills.piece _).append hbody).append (.piece _)

theorem fills_emitAll {o : Options} (ho : o.evaluate = false) (scope : Scope) :
    (ns : List Node) → (depth : Nat) → (pretty raw : Bool) →
      Fills (fun σ => emitAll o scope depth pretty raw (Node.mapCodesAll σ ns))
        (Node.shownCodesAll ns)
  | [], _, _, _ => by
    simp only [Node.mapCodesAll, emitAll, Node.shownCodesAll]
    exact .nothing
  | n :: ns, depth, pretty, raw => by
    simp only [Node.mapCodesAll, emitAll, Node.shownCodesAll]
    exact (fills_emit ho scope n depth pretty raw).append
      (fills_emitAll ho scope ns depth pretty raw)

end

/-! ## Pretty output -/

/-- `tightened` on strings. -/
def tighten (s : String) : String :=
  String.ofList (tightened s.toList)

@[simp] theorem toList_tighten (s : String) : (tighten s).toList = tightened s.toList :=
  String.toList_ofList

theorem inkedEnds_placeholder (code : String) : InkedEnds (placeholder code).toList where
  first := by
    rw [placeholder_eq, String.toList_append, String.toList_append]
    exact ⟨'<', _, rfl, rfl⟩
  last := by
    have hlast : " -->".toList = " --".toList ++ ['>'] := by decide
    rw [placeholder_eq, String.toList_append, hlast, ← List.append_assoc]
    exact ⟨_, '>', rfl, rfl⟩

/-- A placeholder is tightened in its code. -/
theorem tightened_placeholder (code : String) :
    tightened (placeholder code).toList = (placeholder (tighten code)).toList := by
  have hopening : '\n' ∉ "<!-- Expression: ".toList := by decide
  have hclosing : '\n' ∉ " -->".toList := by decide
  rw [placeholder_eq, placeholder_eq, String.toList_append, String.toList_append, List.append_assoc,
    tightened_line_append hopening, tightened_append_line hclosing, String.toList_append,
    String.toList_append, toList_tighten, List.append_assoc]

/-- **What is tightened as a whole is tightened in its parts**: blank lines go from the markup and
from the codes, and the same is left of the markup whatever the codes are.  `f` cleans the start of
the text up, and nothing behind the first ink. -/
theorem exists_parts_tightened (parts : List Part) {f : List Char → List Char}
    (hf : ∀ {p : List Char}, InkedEnds p → ∀ s t, f (s ++ p ++ t) = f s ++ p ++ t)
    (t : List Char) :
    ∃ parts', Part.codes parts' = Part.codes parts ∧
      ∀ σ, trimEnd (f (tightened (t ++ (Part.join σ parts).toList))) =
        (Part.join (tighten ∘ σ) parts').toList := by
  induction parts generalizing f t with
  | nil =>
    refine ⟨[.markup (String.ofList (trimEnd (f (tightened t))))], rfl, fun σ => ?_⟩
    simp [Part.text]
  | cons p parts ih =>
    cases p with
    | markup text =>
      obtain ⟨parts', hcodes, hparts⟩ := ih hf (t ++ text.toList)
      refine ⟨parts', hcodes, fun σ => ?_⟩
      rw [← hparts, Part.join_cons, String.toList_append, List.append_assoc]
      rfl
    | placeholder code =>
      -- the comment parts the text, so that only the end of what follows is cleaned up
      have hid {p : List Char} : InkedEnds p → ∀ s t, id (s ++ p ++ t) = id s ++ p ++ t :=
        fun _ _ _ => rfl
      obtain ⟨parts', hcodes, hparts⟩ := ih hid []
      refine ⟨.markup (String.ofList (f (tightened t))) :: .placeholder code :: parts',
        congrArg (code :: ·) hcodes, fun σ => ?_⟩
      have hink := inkedEnds_placeholder
      have hrest : trimEnd (tightened (Part.join σ parts).toList) =
          (Part.join (tighten ∘ σ) parts').toList := hparts σ
      simp only [Part.join_cons, Part.text, String.toList_append, String.toList_ofList,
        Function.comp_apply]
      rw [← List.append_assoc, (hink (σ code)).tightened_around, tightened_placeholder,
        hf (hink _), (hink _).trimEnd_around, hrest, List.append_assoc]

/-! ## Whole outputs -/

/-- The code of a placeholder as an output has it. -/
def laid (o : Options) (code : String) : String :=
  if o.pretty then tighten code else code

/-- Codes stay apart when an output is finished. -/
theorem exists_parts_finish (o : Options) (parts : List Part) :
    ∃ parts', Part.codes parts' = Part.codes parts ∧
      ∀ σ, finish o (Part.join σ parts) = Part.join (laid o ∘ σ) parts' := by
  cases hpretty : o.pretty with
  | false =>
    refine ⟨parts, rfl, fun σ => ?_⟩
    have hlaid : laid o = id := by
      funext code
      simp [laid, hpretty]
    simp [finish, hpretty, hlaid]
  | true =>
    obtain ⟨parts', hcodes, hparts⟩ :=
      exists_parts_tightened parts InkedEnds.trimStart_around []
    refine ⟨parts' ++ [.markup "\n"], by simp [hcodes], fun σ => ?_⟩
    have hlaid : laid o = tighten := by
      funext code
      simp [laid, hpretty]
    have hsifted : sifted (Part.join σ parts).toList = (Part.join (tighten ∘ σ) parts').toList := by
      rw [sifted_eq_trim_tightened, ← hparts, trim, List.nil_append]
    rw [finish, hpretty, if_pos rfl, tidy_eq_sift, sift, hsifted, hlaid, String.ofList_append,
      String.ofList_toList]
    simp [Part.text]

theorem isComment_laid (o : Options) (code : String) :
    IsComment (placeholder (laid o code)) ↔ ¬"-->".toList <:+: code.toList := by
  rw [isComment_placeholder, laid]
  split
  · rw [toList_tighten, infix_tightened (by decide) (by decide)]
  · rfl

theorem exists_parts_markup (f : Fragment) (hevaluate : o.evaluate = false)
    (hfault : o.fault? = none) :
    ∃ parts, Part.codes parts = Node.shownCodesAll f.children ∧
      ∀ σ, markup (f.mapCodes σ) o = .ok (Part.join (laid o ∘ σ) parts) := by
  obtain ⟨parts, hcodes, hparts⟩ :=
    fills_emitAll hevaluate (.ofNames []) f.children 0 o.pretty false
  obtain ⟨parts', hcodes', hparts'⟩ := exists_parts_finish o parts
  refine ⟨parts', hcodes'.trans hcodes, fun σ => ?_⟩
  have hnames : namesFor (f.mapCodes σ) o = .ok [] := by simp [namesFor, hevaluate]
  have htext : (emission (f.mapCodes σ) o).toText = .ok (Part.join σ parts) := by
    rw [← hparts, emission, hnames, hfault]
    simp only [Fragment.toNode, Fragment.mapCodes, emit]
  rw [markup, htext, ← hparts']
  rfl

/-- **Code that is not evaluated stands in comments, and ends them only with a closing mark of its
own.**  The output of every source text is markup with a comment for each placeholder that is shown,
in order; the markup is the same whatever the codes are; and such a text is one comment exactly if
its code has no closing mark in it. -/
theorem compile_placeholders (source : String) {o : Options} (hevaluate : o.evaluate = false)
    (hfault : o.fault? = none) :
    ∃ parts : List Part,
      Part.codes parts = Node.shownCodesAll (Markup.parse source).tree.children ∧
      compile source o = .ok (Part.join (laid o) parts) ∧
      (∀ σ, markup ((Markup.parse source).tree.mapCodes σ) o =
        .ok (Part.join (laid o ∘ σ) parts)) ∧
      ∀ code, IsComment (placeholder (laid o code)) ↔ ¬"-->".toList <:+: code.toList := by
  obtain ⟨parts, hcodes, hparts⟩ :=
    exists_parts_markup (Markup.parse source).tree hevaluate hfault
  refine ⟨parts, hcodes, ?_, hparts, isComment_laid o⟩
  have hid := hparts id
  rwa [Fragment.mapCodes_id, Function.comp_id] at hid

/-- The options for pretty output without evaluation. -/
def prettyOptions : Options :=
  { Options.default with pretty := true }

/-- Code on three lines, one of them blank, in pretty output. -/
theorem compile_placeholders_lines :
    prettyOptions.evaluate = false ∧ prettyOptions.fault? = none ∧
      ∃ parts, Part.codes parts = ["a\n\n- b"] ∧
        compile "<p>\x7ba\n\n- b\x7d</p>" prettyOptions =
          .ok (Part.join (laid prettyOptions) parts) ∧
        laid prettyOptions "a\n\n- b" = "a\n- b" ∧ IsComment (placeholder "a\n- b") := by
  obtain ⟨parts, hcodes, htext, -, hcomment⟩ :=
    compile_placeholders "<p>\x7ba\n\n- b\x7d</p>" (o := prettyOptions) rfl rfl
  have htree : Node.shownCodesAll (Markup.parse "<p>\x7ba\n\n- b\x7d</p>").tree.children =
      ["a\n\n- b"] := by decide +kernel
  have hlaid : laid prettyOptions "a\n\n- b" = "a\n- b" := by decide +kernel
  exact ⟨rfl, rfl, parts, hcodes.trans htree, htext, hlaid, hlaid ▸ (hcomment _).2 (by decide)⟩

/-- A closing mark in the code ends the comment, and the rest of the code is markup. -/
theorem compile_closing_mark :
    compile "\x7ba-->b\x7d" .default = .ok (placeholder "a-->b") ∧
      ¬IsComment (placeholder "a-->b") := by
  refine ⟨?_, fun h => (isComment_placeholder _).1 h (by decide)⟩
  decide +kernel

end Build
end Atoll
