import Atoll.Proofs.Cleanup
import Atoll.Proofs.Emission

/-!
# Pretty output differs from plain output in blanks only

Pretty output puts nodes on lines of their own, indents them, trims their texts, and is tidied as a
whole in the end.  None of this touches a character that is not blank.  Such characters are the
*ink* of a text, and here the ink of every output is worked out.

* `Text.ink`, `Text.visible` — a text without its blanks.  It goes through appending, trimming and
  cutting into lines (`Text.ink_append`, `Text.ink_trim`, `Text.ink_flatten_lines`).
* `visible_tidy` — tidying keeps the ink, because every line that is taken comes out later
  (`Cleanup.ink_takeLines`).
* `shown_emit` — **a node shows the same in both layouts**, at any depth and with any blank indent,
  by recursion on the node.
* `visible_markup` — hence so does a whole document, and what ends one output ends the other.
-/

set_option autoImplicit false

namespace Atoll
namespace Text

/-! ## Ink -/

/-- The characters of a text that are not blank. -/
def ink (s : List Char) : List Char :=
  s.filter fun c => !isBlank c

/-- `ink` on strings. -/
def visible (s : String) : String :=
  String.ofList (ink s.toList)

@[simp] theorem ink_nil : ink [] = [] := rfl

@[simp] theorem ink_append (a b : List Char) : ink (a ++ b) = ink a ++ ink b :=
  List.filter_append ..

theorem ink_eq_nil {s : List Char} : ink s = [] ↔ allBlank s = true := by
  simp [ink, allBlank]

/-- What is taken off the front is blank. -/
@[simp] theorem ink_trimStart (s : List Char) : ink (trimStart s) = ink s := by
  induction s with
  | nil => rfl
  | cons c cs ih =>
    rw [trimStart, List.dropWhile_cons]
    split
    · rename_i hblank
      have hcons : ink (c :: cs) = ink cs := List.filter_cons_of_neg (by simp [hblank])
      rw [hcons]
      exact ih
    · rfl

theorem ink_reverse (s : List Char) : ink s.reverse = (ink s).reverse :=
  List.filter_reverse ..

@[simp] theorem ink_trimEnd (s : List Char) : ink (trimEnd s) = ink s := by
  have hstart := ink_trimStart s.reverse
  rw [trimStart, ink_reverse] at hstart
  rw [trimEnd, ink_reverse, hstart, List.reverse_reverse]

@[simp] theorem ink_trim (s : List Char) : ink (trim s) = ink s := by
  rw [trim, ink_trimEnd, ink_trimStart]

/-- The pieces of a text hold all of it but the cuts. -/
theorem flatten_cutWhere (p : Char → Bool) (s : List Char) :
    (cutWhere p s).flatten = s.filter fun c => !p c := by
  induction s with
  | nil => rfl
  | cons c cs ih =>
    obtain ⟨line, more, h⟩ := List.exists_cons_of_ne_nil (cutWhere_ne_nil p cs)
    by_cases hc : p c = true
    · rw [cutWhere_cons_of_cut cs hc, List.filter_cons_of_neg (by simp [hc]), ← ih]
      rfl
    · have hc : p c = false := by simpa using hc
      rw [cutWhere_cons_of_not hc h, List.filter_cons_of_pos (by simp [hc]), ← ih, h]
      rfl

/-- The lines of a text have its ink, as the newlines between them are blank. -/
theorem ink_flatten_lines (s : List Char) : ink (lines s).flatten = ink s := by
  rw [lines, flatten_cutWhere, ink, List.filter_filter]
  refine List.filter_congr fun c _ => ?_
  by_cases hc : c = '\n'
  · subst hc
    rfl
  · simp [hc]

@[simp] theorem toList_visible (s : String) : (visible s).toList = ink s.toList :=
  String.toList_ofList

@[simp] theorem visible_append (a b : String) : visible (a ++ b) = visible a ++ visible b := by
  simp [← String.toList_inj]

theorem visible_of_allBlank {s : String} (h : allBlank s.toList = true) : visible s = "" := by
  rw [visible, ink_eq_nil.2 h]

@[simp] theorem visible_strip (s : String) : visible (strip s) = visible s := by
  simp [← String.toList_inj, strip]

theorem allBlank_times {s : String} (h : allBlank s.toList = true) (n : Int) :
    allBlank (times n s).toList = true := by
  rw [times, String.toList_join, allBlank, List.all_flatMap]
  simp only [List.all_eq_true, List.mem_replicate]
  rintro x ⟨-, rfl⟩
  exact List.all_eq_true.1 h

end Text

namespace Build

open Text
open Atoll.Expr (Fault)
open Markup
open Script (Scope)

/-! ## The cleanup -/

namespace Cleanup

/-- A line that is taken is let go or held back; a blank one has no ink to lose. -/
theorem ink_takeLine (held : Option (List Char)) (line : List Char) :
    ink (takeLine held line).2 ++ ink ((takeLine held line).1.getD []) =
      ink (held.getD []) ++ ink line := by
  unfold takeLine
  split
  · rename_i hblank
    simp [ink_eq_nil.2 hblank]
  · cases held with
    | none => simp
    | some before =>
      have hnewline : ink ['\n'] = [] := rfl
      simp [hnewline]

theorem ink_takeLines (held : Option (List Char)) (lines : List (List Char)) :
    ink (takeLines held lines).2 ++ ink ((takeLines held lines).1.getD []) =
      ink (held.getD []) ++ ink lines.flatten := by
  induction lines generalizing held with
  | nil => simp [takeLines]
  | cons line rest ih =>
    calc ink (takeLines held (line :: rest)).2 ++ ink ((takeLines held (line :: rest)).1.getD [])
        = ink (takeLine held line).2 ++ (ink (takeLines (takeLine held line).1 rest).2 ++
            ink ((takeLines (takeLine held line).1 rest).1.getD [])) := by simp [takeLines]
      _ = (ink (takeLine held line).2 ++ ink ((takeLine held line).1.getD [])) ++
            ink rest.flatten := by rw [ih, List.append_assoc]
      _ = ink (held.getD []) ++ ink (line :: rest).flatten := by simp [ink_takeLine]

/-- What is still to be written at the end is the line held back and the incomplete one. -/
theorem ink_close (c : Cleanup) :
    ink c.close.2.toList = ink (c.held.getD []) ++ ink c.pending := by
  rw [← ink_takeLine]
  have hnewline : ink ['\n'] = [] := rfl
  cases h : (takeLine c.held c.pending).1 with
  | none => simp [close, h, hnewline]
  | some line => simp [close, h, hnewline]

end Cleanup

/-- **Tidying keeps the ink of an output.** -/
theorem visible_tidy (s : String) : visible (tidy s) = visible s := by
  have hlines : (lines s.toList).flatten =
      (lines s.toList).dropLast.flatten ++ (lines s.toList).getLast?.getD [] := by
    have hne : lines s.toList ≠ [] := cutWhere_ne_nil _ _
    have hsplit := congrArg List.flatten (List.dropLast_concat_getLast hne)
    rw [List.flatten_concat] at hsplit
    rw [List.getLast?_eq_some_getLast hne, Option.getD_some, hsplit]
  have htaken := Cleanup.ink_takeLines none (lines s.toList).dropLast
  rw [← String.toList_inj, toList_visible, toList_visible, ← ink_flatten_lines s.toList, hlines]
  simp [tidy, Cleanup.feed_eq, Cleanup.ink_close, Cleanup.start, ← List.append_assoc, htaken]

/-! ## Emissions -/

/-- What an emission shows: the text of its pieces without the blanks. -/
def Emission.shown (e : Emission String) : Except Fault String :=
  e.toText.map visible

namespace Emission

@[simp] theorem shown_nothing : (nothing : Emission String).shown = .ok "" := rfl

@[simp] theorem shown_piece (s : String) : (piece s).shown = .ok (visible s) := by
  rw [shown, toText_piece]
  rfl

@[simp] theorem shown_ofExcept (r : Except Fault String) :
    (ofExcept r).shown = r.map visible := by
  rw [shown, toText_ofExcept]

theorem shown_append (a b : Emission String) :
    (a ++ b).shown = a.shown.bind fun x => b.shown.map fun y => x ++ y := by
  rw [shown, toText_append, shown, shown]
  cases a.toText with
  | error fault => rfl
  | ok x =>
    cases b.toText with
    | error fault => rfl
    | ok y => simp [Except.bind, Except.map]

/-! A text between two others can be cut into pieces or be one piece. -/

theorem shown_between (e : Emission String) (before after : String) :
    (piece before ++ e ++ piece after).shown =
      e.shown.map fun body => visible before ++ body ++ visible after := by
  rw [shown_append, shown_append, shown_piece, shown_piece]
  cases e.shown with
  | error fault => rfl
  | ok body => rfl

theorem shown_wrapped (e : Emission String) (before after : String) :
    (ofExcept (e.toText.map fun body => before ++ body ++ after)).shown =
      e.shown.map fun body => visible before ++ body ++ visible after := by
  rw [shown_ofExcept, shown]
  cases e.toText with
  | error fault => rfl
  | ok body => simp [Except.map]

end Emission

/-! ## Both layouts of a node -/

/-- Only what is evaluated decides how attributes are written. -/
theorem attrsText_congr {o p : Options} (h : o.evaluate = p.evaluate) (scope : Scope)
    (attrs : List Attr) : attrsText o scope attrs = attrsText p scope attrs := by
  induction attrs with
  | nil => rfl
  | cons a attrs ih => rw [attrsText, attrsText, attrValue, attrValue, h, ih]

@[simp] theorem visible_lineEnd (pretty : Bool) : visible (lineEnd pretty) = "" := by
  cases pretty <;> rfl

theorem visible_block {indent : String} (h : visible indent = "") (text : String)
    (pretty : Bool) : visible (block text indent pretty) = visible text := by
  unfold block
  split
  · rfl
  · split
    · rename_i hblank
      rw [visible_of_allBlank hblank]
      rfl
    · have hnewline : visible "\n" = "" := rfl
      simp [h, hnewline]

/-- Two sets of options that say the same about everything but the layout, the first of which
indents by blanks. -/
structure SameButLayout (o p : Options) : Prop where
  escape : o.escape = p.escape
  evaluate : o.evaluate = p.evaluate
  indent : ∃ unit, o.indent = .text unit ∧ allBlank unit.toList = true

namespace SameButLayout

variable {o p : Options} (h : SameButLayout o p)
include h

theorem visible_indentAt (depth : Nat) (pretty : Bool) :
    visible (indentAt o depth pretty) = "" := by
  obtain ⟨unit, hunit, hblank⟩ := h.indent
  cases pretty with
  | false => rfl
  | true =>
    rw [indentAt, if_pos rfl, hunit]
    exact visible_of_allBlank (allBlank_times hblank _)

theorem shown_expressionPiece (scope : Scope) (code : String) (depth : Nat) (pretty : Bool) :
    (expressionPiece o scope code (indentAt o depth pretty) pretty).map visible =
      (expressionPiece p scope code "" false).map visible := by
  have hindent := h.visible_indentAt depth pretty
  rw [expressionPiece, expressionPiece, h.evaluate, h.escape]
  split
  · simp [Except.map, hindent]
  · cases scope.textOf code with
    | error fault => rfl
    | ok text =>
      have hblock := visible_block hindent (if p.escape then escapeHtml text else text) pretty
      simp [bind, Except.bind, Except.map, hblock]

end SameButLayout

mutual

/-- **A node shows the same in both layouts**, whatever the depths are. -/
theorem shown_emit {o p : Options} (h : SameButLayout o p) (scope : Scope) (pretty : Bool) :
    (n : Node) → (depth depth' : Nat) → (raw : Bool) →
      (emit o scope depth pretty raw n).shown = (emit p scope depth' false raw n).shown
  | .fragment children _, depth, depth', raw => by
    rw [emit, emit]
    exact shown_emitAll h scope pretty children depth depth' raw
  | .frontmatter _ _, _, _, _ => by rw [emit, emit]
  | .text value _, depth, depth', raw => by
    rw [emit, emit, Emission.shown_piece, Emission.shown_piece, textPiece, textPiece,
      visible_block (h.visible_indentAt depth pretty), h.escape, block_plain]
  | .expression code _ _, depth, depth', raw => by
    rw [emit, emit, Emission.shown_ofExcept, Emission.shown_ofExcept, h.shown_expressionPiece,
      indentAt_plain]
  | .raw value _, depth, depth', raw => by
    rw [emit, emit, Emission.shown_piece, Emission.shown_piece,
      visible_block (h.visible_indentAt depth pretty), block_plain]
  | .component tag _ _ _ _, depth, depth', raw => by
    rw [emit, emit]
    simp [h.visible_indentAt]
  | .element tag attrs children selfClosing _, depth, depth', raw => by
    rw [emit, emit, attrsText_congr h.evaluate]
    cases attrsText p scope attrs with
    | error fault => rfl
    | ok attrs =>
      have hindent := h.visible_indentAt depth pretty
      dsimp only
      split
      · simp [hindent]
      split
      · simp [hindent]
      split
      · simp [hindent]
      -- what is left has children, in plain output always in pieces of their own
      rw [Bool.false_and, if_neg Bool.false_ne_true, Emission.shown_between]
      split
      · have hwrapped := Emission.shown_wrapped
          (emitAll o scope 0 false (isRawTextElement (Text.lower tag)) children)
          (indentAt o depth pretty ++ "<" ++ Text.lower tag ++ attrs ++ ">")
          ("</" ++ Text.lower tag ++ ">" ++ lineEnd pretty)
        simp only [← String.append_assoc] at hwrapped ⊢
        rw [hwrapped, shown_emitAll h scope false children 0 (depth' + 1)]
        simp [hindent]
      · rw [Emission.shown_between, shown_emitAll h scope pretty children (depth + 1) (depth' + 1)]
        simp [hindent]

theorem shown_emitAll {o p : Options} (h : SameButLayout o p) (scope : Scope) (pretty : Bool) :
    (ns : List Node) → (depth depth' : Nat) → (raw : Bool) →
      (emitAll o scope depth pretty raw ns).shown = (emitAll p scope depth' false raw ns).shown
  | [], _, _, _ => by rw [emitAll, emitAll]
  | n :: ns, depth, depth', raw => by
    rw [emitAll, emitAll, Emission.shown_append, Emission.shown_append,
      shown_emit h scope pretty n depth depth' raw, shown_emitAll h scope pretty ns depth depth' raw]

end

/-! ## Documents -/

/-- The names that a document binds do not depend on the layout. -/
theorem namesFor_pretty (f : Fragment) (o : Options) (pretty : Bool) :
    namesFor f { o with pretty := pretty } = namesFor f o := rfl

/-- A finished output shows what its pieces show. -/
theorem visible_finish (o : Options) (html : String) : visible (finish o html) = visible html := by
  unfold finish
  split
  · exact visible_tidy html
  · rfl

theorem shown_markup (f : Fragment) (o : Options) :
    (markup f o).map visible = (emission f o).shown := by
  rw [markup, Emission.shown]
  cases (emission f o).toText with
  | error fault => rfl
  | ok html => exact congrArg Except.ok (visible_finish o html)

/-- **Pretty output differs from plain output in blanks only.**  For every document and all options
with an indent of blanks, the pretty markup and the plain one are the same text once all blanks are
taken out of both; and where one of them ends in a fault, the other ends in the same one. -/
theorem visible_markup (f : Fragment) (o : Options) {unit : String} (hunit : o.indent = .text unit)
    (hblank : allBlank unit.toList = true) :
    (markup f { o with pretty := true }).map visible =
      (markup f { o with pretty := false }).map visible := by
  have hsame : SameButLayout { o with pretty := true } { o with pretty := false } :=
    ⟨rfl, rfl, unit, hunit, hblank⟩
  have hfault : Options.fault? { o with pretty := true } = none := by
    simp [Options.fault?, hunit, Indent.isUsable]
  rw [shown_markup, shown_markup, emission, emission, hfault, namesFor_pretty f o true,
    namesFor_pretty f o false]
  cases namesFor f o with
  | error fault => rfl
  | ok names => exact shown_emit hsame (.ofNames names) true f.toNode 0 0 false

/-- A list with blanks between its entries and inside of them. -/
def spacedList : Fragment :=
  ⟨[.element "ul" []
      [.text "\n " .empty, .element "li" [] [.text " a  b " .empty] false .empty,
        .text " c\td\n" .empty] false .empty], .empty⟩

/-- Options that indent by a tab and a space. -/
def tabbed : Options :=
  { Options.default with indent := .text "\t " }

set_option maxRecDepth 4096 in
/-- Both layouts of a small document and what they have in common. -/
theorem visible_markup_spacedList :
    markup spacedList { tabbed with pretty := true } =
        .ok "<ul>\n\t <li> a  b </li>\n\t c\td\n</ul>\n" ∧
      markup spacedList { tabbed with pretty := false } =
        .ok "<ul>\n <li> a  b </li> c\td\n</ul>" ∧
      (markup spacedList { tabbed with pretty := true }).map visible =
        (markup spacedList { tabbed with pretty := false }).map visible :=
  ⟨rfl, rfl, visible_markup spacedList tabbed rfl rfl⟩

end Build
end Atoll
