import Atoll.Proofs.Digits
import Atoll.Proofs.Mappings
import Atoll.Synthesis
import Mathlib.Data.List.Forall2

/-!
# Source maps point at generated statements

The source map of a module is counted in generated lines, so it is right only if no line has a
newline in it.  File names, statements and templates of any content get into the lines, quoted or
cut at their newlines first.

* `SourceMap.value_textWriter` — **both writers have the same text**, by induction on the lines.
* `Code.placed` — the statements that have an origin, in the order of the text.
* `Code.filter_layoutStmts` — **the lines with an origin are the first lines of these statements**,
  by induction on the statements.
* `Code.Tidy` — what a module must look like for its lines to be lines; `Code.unbroken_layout` says
  that they are, and `Synthesis.tidy_moduleOf` that every module looks like that.
* `SourceMap.mappingsFrom_records` — the mappings are those of the lines with an origin, one by one.
* `Synthesis.sourceMap_pointsAt` — the result: a source map changes nothing in the code, and its
  records point at the statements with an origin, one record for each.
-/

set_option autoImplicit false

namespace Atoll

/-! ## Texts without newlines -/

namespace Text

/-- The text has no newline in it. -/
def OneLine (text : String) : Prop :=
  ∀ c ∈ text.toList, c ≠ '\n'

theorem oneLine_empty : OneLine "" := by
  simp [OneLine]

theorem OneLine.append {a b : String} (ha : OneLine a) (hb : OneLine b) : OneLine (a ++ b) := by
  intro c hc
  rw [String.toList_append, List.mem_append] at hc
  exact hc.elim (ha c) (hb c)

theorem OneLine.times {unit : String} (h : OneLine unit) (n : Int) : OneLine (times n unit) := by
  intro c hc
  rw [Text.times, String.toList_join] at hc
  obtain ⟨s, hs, hc⟩ := List.mem_flatMap.1 hc
  rw [List.eq_of_mem_replicate hs] at hc
  exact h c hc

theorem hexPadded_ne_newline (width n : Nat) : ∀ c ∈ hexPadded width n, c ≠ '\n' := by
  rintro c hc rfl
  exact absurd (isHex_of_mem_hexPadded width n _ hc) (by decide)

theorem quoteChar_ne_newline {quote : Char} (hquote : quote ≠ '\n') (c : Char) :
    ∀ d ∈ quoteChar quote c, d ≠ '\n' := by
  have hhex : ∀ letter : Char, letter ≠ '\n' → ∀ width,
      ∀ d ∈ '\\' :: letter :: hexPadded width c.toNat, d ≠ '\n' := by
    intro letter hletter width
    exact List.forall_mem_cons.2 ⟨by decide,
      List.forall_mem_cons.2 ⟨hletter, hexPadded_ne_newline width _⟩⟩
  unfold quoteChar
  split
  · rename_i hc
    have hc : c ≠ '\n' := by
      rintro rfl
      simp [hquote.symm] at hc
    simp [hc]
  split
  · simp
  rename_i hnewline
  split
  · simp
  split
  · simp
  split
  · simpa using hnewline
  split
  · exact hhex 'x' (by decide) 2
  split
  · exact hhex 'u' (by decide) 4
  · exact hhex 'U' (by decide) 8

/-- **A quoted text has no newline in it**, whatever the text has. -/
theorem oneLine_quoted (s : String) : OneLine (quoted s) := by
  have hquote : quoteFor s.toList ≠ '\n' := by
    rw [quoteFor]
    split <;> decide
  simp only [OneLine, quoted, String.toList_ofList, List.cons_append, List.mem_cons,
    List.mem_append, List.mem_flatMap, List.not_mem_nil, or_false]
  rintro c (rfl | ⟨d, -, hc⟩ | rfl)
  · exact hquote
  · exact quoteChar_ne_newline hquote d c hc
  · exact hquote

theorem oneLine_of_mem_lines (s : List Char) : ∀ line ∈ lines s, OneLine (String.ofList line) := by
  simp only [OneLine, String.toList_ofList]
  induction s with
  | nil => simp [lines, cutWhere]
  | cons c cs ih =>
    rw [lines] at ih ⊢
    obtain ⟨line, more, h⟩ := List.exists_cons_of_ne_nil (cutWhere_ne_nil (· == '\n') cs)
    rw [h, List.forall_mem_cons] at ih
    by_cases hc : c = '\n'
    · rw [cutWhere_cons_of_cut cs (by simp [hc]), h]
      simpa using ih
    · rw [cutWhere_cons_of_not (by simp [hc]) h]
      simpa [hc] using ih

/-- The first line of a text is what stands in front of its first newline. -/
theorem head?_lines (s : List Char) : (lines s).head? = some (s.takeWhile (· != '\n')) := by
  induction s with
  | nil => rfl
  | cons c cs ih =>
    rw [lines] at ih ⊢
    obtain ⟨line, more, h⟩ := List.exists_cons_of_ne_nil (cutWhere_ne_nil (· == '\n') cs)
    rw [h, List.head?_cons, Option.some_inj] at ih
    by_cases hc : c = '\n'
    · rw [cutWhere_cons_of_cut cs (by simp [hc]), hc]
      rfl
    · rw [cutWhere_cons_of_not (by simp [hc]) h, ih]
      simp [hc]

end Text

/-! ## Writers -/

namespace SourceMap

theorem foldl_mappedWriter (done lines : List GeneratedLine) :
    lines.foldl mappedWriter.writeLine done = done ++ lines := by
  induction lines generalizing done with
  | nil => exact (List.append_nil done).symm
  | cons line lines ih => exact (ih _).trans (List.append_assoc done [line] lines)

theorem foldl_textWriter (texts : List String) (lines : List GeneratedLine) :
    lines.foldl textWriter.writeLine texts = texts ++ lines.map (·.text) := by
  induction lines generalizing texts with
  | nil => exact (List.append_nil texts).symm
  | cons line lines ih => exact (ih _).trans (List.append_assoc texts [line.text] _)

/-- **Where lines come from makes no difference to their text.** -/
theorem value_textWriter (lines : List GeneratedLine) :
    textWriter.value (lines.foldl textWriter.writeLine textWriter.start) =
      mappedWriter.value (lines.foldl mappedWriter.writeLine mappedWriter.start) := by
  rw [foldl_textWriter, foldl_mappedWriter]
  rfl

/-! ## Records of lines -/

/-- **Lines without newlines are the lines of their text**, and one empty line is behind them. -/
theorem lines_text {lines : List GeneratedLine} (hne : lines ≠ [])
    (h : ∀ l ∈ lines, Text.OneLine l.text) :
    Text.lines (text lines).toList = lines.map (·.text.toList) ++ [[]] := by
  have htext : (text lines).toList = ['\n'].intercalate (lines.map (·.text.toList) ++ [[]]) := by
    rw [text, String.toList_append, String.toList_intercalate, List.map_map]
    induction lines with
    | nil => exact absurd rfl hne
    | cons line rest ih =>
      cases rest with
      | nil => simp
      | cons next rest =>
        have ih := ih (by simp) fun l hl => h l (List.mem_cons_of_mem _ hl)
        simpa [List.intercalate_cons_cons] using ih
  rw [htext, Text.lines, Text.cutWhere_intercalate (by decide)]
  · simp
  · intro s hs c hc
    simp only [List.mem_append, List.mem_map, List.mem_singleton] at hs
    rcases hs with ⟨line, hline, rfl⟩ | rfl
    · exact beq_eq_false_iff_ne.2 (h line hline c hc)
    · cases hc

/-- The record belongs to a line of the text, and to the origin of that line. -/
structure RecordOf (lines : List GeneratedLine) (number : Nat) (m : Mapping)
    (line : GeneratedLine) : Prop where
  behind : number ≤ m.generatedLine
  found : lines[m.generatedLine - number]? = some line
  column : m.generatedColumn = line.column
  origin : ∃ p, line.origin = some p ∧ m.sourceLine = p.line - 1 ∧ m.sourceColumn = p.column - 1

/-- The mappings are records of the lines with an origin, one by one. -/
theorem mappingsFrom_records (number : Nat) (lines : List GeneratedLine) :
    List.Forall₂ (RecordOf lines number) (mappingsFrom number lines)
      (lines.filter (·.origin.isSome)) := by
  induction lines generalizing number with
  | nil => exact .nil
  | cons line rest ih =>
    have hrest : List.Forall₂ (RecordOf (line :: rest) number) (mappingsFrom (number + 1) rest)
        (rest.filter (·.origin.isSome)) := by
      refine (ih (number + 1)).imp fun m l hm => ?_
      have hbehind := hm.behind
      refine ⟨by omega, ?_, hm.column, hm.origin⟩
      rw [show m.generatedLine - number = m.generatedLine - (number + 1) + 1 by omega]
      exact hm.found
    cases h : line.origin with
    | none => simpa [mappingsFrom, lineMapping?, h] using hrest
    | some p =>
      simp only [mappingsFrom, lineMapping?, h, List.filter_cons, Option.isSome_some, if_true]
      exact .cons ⟨Nat.le_refl _, by simp, rfl, p, h, rfl, rfl⟩ hrest

theorem le_of_mem_mappingsFrom {number : Nat} {lines : List GeneratedLine} {m : Mapping}
    (h : m ∈ mappingsFrom number lines) : number ≤ m.generatedLine := by
  induction lines generalizing number with
  | nil => cases h
  | cons line rest ih =>
    rw [mappingsFrom, List.mem_append, Option.mem_toList] at h
    rcases h with h | h
    · obtain ⟨p, -, rfl⟩ := Option.map_eq_some_iff.1 h
      exact Nat.le_refl _
    · exact Nat.le_of_succ_le (ih h)

/-- The mappings go through the lines from the first to the last. -/
theorem mappingsFrom_pairwise (number : Nat) (lines : List GeneratedLine) :
    (mappingsFrom number lines).Pairwise fun m m' => m.generatedLine < m'.generatedLine := by
  induction lines generalizing number with
  | nil => exact .nil
  | cons line rest ih =>
    rw [mappingsFrom, List.pairwise_append]
    refine ⟨?_, ih (number + 1), ?_⟩
    · cases h : line.origin <;> simp [lineMapping?, h]
    · intro m hm m' hm'
      obtain ⟨p, -, rfl⟩ := Option.map_eq_some_iff.1 (Option.mem_toList.1 hm)
      exact le_of_mem_mappingsFrom hm'

end SourceMap

/-! ## Statements with an origin -/

namespace Code

open Text (OneLine)

/-- A statement with an origin: how deep it stands, its text, and where it comes from. -/
structure Placed where
  level : Nat
  text : String
  origin : Position
  deriving DecidableEq, Repr

/-- The first line of a placed statement as it is laid out. -/
def Placed.line (unit : String) (s : Placed) : GeneratedLine :=
  ⟨Text.times s.level unit ++ String.ofList (s.text.toList.takeWhile (· != '\n')), some s.origin,
    (Text.times s.level unit).length⟩

mutual

/-- What has an origin in a statement: a line, or the header of a block, and what is in its body. -/
def placed (level : Nat) : Stmt → List Placed
  | .line text origin => (origin.map (⟨level, text, ·⟩)).toList
  | .comment _ => []
  | .blank => []
  | .block header body _ origin =>
    (origin.map (⟨level, header, ·⟩)).toList ++ placedAll (level + 1) body

/-- `placed` on statements one behind the other. -/
def placedAll (level : Nat) : List Stmt → List Placed
  | [] => []
  | s :: ss => placed level s ++ placedAll level ss

end

theorem indented_eq (indent text : String) (origin : Option Position) :
    ∃ rest : List GeneratedLine, (∀ l ∈ rest, l.origin = none) ∧
      indented indent text origin =
        ⟨indent ++ String.ofList (text.toList.takeWhile (· != '\n')), origin, indent.length⟩
          :: rest := by
  obtain ⟨first, more, h⟩ := List.exists_cons_of_ne_nil
    (Text.cutWhere_ne_nil (· == '\n') text.toList)
  have hfirst := Text.head?_lines text.toList
  rw [Text.lines, h, List.head?_cons, Option.some_inj] at hfirst
  refine ⟨(more.map String.ofList).map fun line =>
    plainLine (if line.isEmpty then "" else indent ++ line), ?_, ?_⟩
  · intro l hl
    obtain ⟨line, -, rfl⟩ := List.mem_map.1 hl
    rfl
  · rw [indented, Text.lines, h, ← hfirst]
    rfl

/-- Of the lines of a text only the first has an origin, if the text has one. -/
theorem filter_indented (unit : String) (level : Nat) (text : String) (origin : Option Position) :
    (indented (Text.times level unit) text origin).filter (·.origin.isSome) =
      (origin.map (⟨level, text, ·⟩ : Position → Placed)).toList.map (Placed.line unit) := by
  obtain ⟨rest, hrest, h⟩ := indented_eq (Text.times level unit) text origin
  have hnone : rest.filter (·.origin.isSome) = [] :=
    List.filter_eq_nil_iff.2 fun l hl => by simp [hrest l hl]
  rw [h, List.filter_cons, hnone]
  cases origin <;> rfl

mutual

theorem filter_layoutStmt (unit : String) (level : Nat) (s : Stmt) :
    (layoutStmt unit level s).filter (·.origin.isSome) =
      (placed level s).map (Placed.line unit) :=
  match s with
  | .line text origin => filter_indented unit level text origin
  | .comment _ => rfl
  | .blank => rfl
  | .block header body footer origin => by
    -- the line that closes a block, or stands for an empty body, has no origin
    have hbody : (if body.isEmpty && footer.isNone
          then [plainLine (Text.times level unit ++ unit ++ "pass")]
          else layoutStmts unit (level + 1) body).filter (·.origin.isSome) =
        (placedAll (level + 1) body).map (Placed.line unit) := by
      cases body with
      | nil => cases footer <;> rfl
      | cons s ss => exact filter_layoutStmts unit (level + 1) (s :: ss)
    have hfooter :
        ((footer.map fun text => plainLine (Text.times level unit ++ text)).toList).filter
          (·.origin.isSome) = [] := by
      cases footer <;> rfl
    simp only [layoutStmt, placed, List.filter_append, hbody, hfooter, filter_indented,
      List.append_nil, List.map_append]

/-- **The lines with an origin are the first lines of the statements with one.** -/
theorem filter_layoutStmts (unit : String) (level : Nat) (ss : List Stmt) :
    (layoutStmts unit level ss).filter (·.origin.isSome) =
      (placedAll level ss).map (Placed.line unit) :=
  match ss with
  | [] => rfl
  | s :: ss => by
    rw [layoutStmts, placedAll, List.filter_append, List.map_append,
      filter_layoutStmt unit level s, filter_layoutStmts unit level ss]

end

/-! ## Lines without newlines -/

mutual

/-- The comments and the closing lines in a statement have no newline in them.  Other texts may have
any: they are cut. -/
def Tidy : Stmt → Prop
  | .line _ _ => True
  | .comment text => OneLine text
  | .blank => True
  | .block _ body footer _ => AllTidy body ∧ ∀ text ∈ footer, OneLine text

/-- `Tidy` on statements one behind the other. -/
def AllTidy : List Stmt → Prop
  | [] => True
  | s :: ss => Tidy s ∧ AllTidy ss

end

theorem unbroken_indented {indent : String} (h : OneLine indent) (text : String)
    (origin : Option Position) : ∀ l ∈ indented indent text origin, OneLine l.text := by
  intro l hl
  rw [indented] at hl
  split at hl
  · cases hl
  · rename_i first rest hcut
    have hone : ∀ s ∈ first :: rest, OneLine s := by
      rw [← hcut]
      intro s hs
      obtain ⟨line, hline, rfl⟩ := List.mem_map.1 hs
      exact Text.oneLine_of_mem_lines text.toList line hline
    rw [List.forall_mem_cons] at hone
    rcases List.mem_cons.1 hl with rfl | hl
    · exact h.append hone.1
    · obtain ⟨line, hline, rfl⟩ := List.mem_map.1 hl
      rw [plainLine]
      split
      · exact Text.oneLine_empty
      · exact h.append (hone.2 line hline)

mutual

theorem unbroken_layoutStmt {unit : String} (hunit : OneLine unit) (level : Nat) (s : Stmt)
    (h : Tidy s) : ∀ l ∈ layoutStmt unit level s, OneLine l.text :=
  have hindent : OneLine (Text.times level unit) := hunit.times level
  match s, h with
  | .line text origin, _ => unbroken_indented hindent text origin
  | .comment text, h => by
    rw [layoutStmt, List.forall_mem_singleton]
    exact (hindent.append (by simp [OneLine])).append h
  | .blank, _ => by simp [layoutStmt, plainLine, Text.oneLine_empty]
  | .block header body footer origin, ⟨hbody, hfooter⟩ => by
    intro l hl
    simp only [layoutStmt, List.mem_append] at hl
    rcases hl with (hl | hl) | hl
    · exact unbroken_indented hindent header origin l hl
    · split at hl
      · rw [List.mem_singleton.1 hl]
        exact (hindent.append hunit).append (by simp [OneLine])
      · exact unbroken_layoutStmts hunit (level + 1) body hbody l hl
    · cases footer with
      | none => cases hl
      | some text =>
        rw [List.mem_singleton.1 hl]
        exact hindent.append (hfooter text rfl)

theorem unbroken_layoutStmts {unit : String} (hunit : OneLine unit) (level : Nat)
    (ss : List Stmt) (h : AllTidy ss) : ∀ l ∈ layoutStmts unit level ss, OneLine l.text :=
  match ss, h with
  | [], _ => by simp [layoutStmts]
  | s :: ss, ⟨hs, hss⟩ => by
    intro l hl
    rw [layoutStmts, List.mem_append] at hl
    exact hl.elim (unbroken_layoutStmt hunit level s hs l)
      (unbroken_layoutStmts hunit level ss hss l)

end

theorem oneLine_describe (text : String) : OneLine (describe text) := by
  rw [describe]
  split
  · exact Text.oneLine_quoted text
  · rename_i hplain
    simp only [Bool.or_eq_true, not_or, List.contains_iff_mem] at hplain
    have htext : OneLine text := fun c hc hnewline => hplain.2 (hnewline ▸ hc)
    exact (OneLine.append (by simp [OneLine]) htext).append (by simp [OneLine])

/-- **The lines of a tidy module are lines**: none has a newline in it. -/
theorem unbroken_layout {m : Module} (h : AllTidy m.body) :
    ∀ l ∈ layout m standardUnit, OneLine l.text := by
  have hunit : OneLine standardUnit := by simp [OneLine, standardUnit]
  have hbody := unbroken_layoutStmts hunit 0 m.body h
  intro l hl
  rw [layout, List.mem_append] at hl
  rcases hl with hl | hl
  · cases hdescription : m.description with
    | none => simp [hdescription] at hl
    | some text =>
      simp only [hdescription, List.mem_cons, List.not_mem_nil, or_false] at hl
      rcases hl with rfl | rfl
      · exact oneLine_describe text
      · exact Text.oneLine_empty
  · exact hbody l hl

theorem filter_layout (m : Module) (unit : String) :
    (layout m unit).filter (·.origin.isSome) = (placedAll 0 m.body).map (Placed.line unit) := by
  rw [layout, List.filter_append, filter_layoutStmts]
  cases m.description <;> rfl

theorem toList_times_standardUnit (level : Nat) :
    (Text.times level standardUnit).toList = List.replicate (4 * level) ' ' := by
  rw [Text.times, String.toList_join, Int.toNat_natCast]
  induction level with
  | zero => rfl
  | succ level ih =>
    rw [List.replicate_succ, List.flatMap_cons, ih, Nat.mul_succ, Nat.add_comm,
      List.replicate_add]
    rfl

/-- A record of a source map points at a statement with an origin: the line with the record's number
is the first line of the statement behind as many blanks as the record's column says, and the place
in the source is the origin, counted from zero. -/
structure PointsAt (code : String) (m : SourceMap.Mapping) (s : Placed) : Prop where
  column : m.generatedColumn = (4 * s.level : Nat)
  line : (Text.lines code.toList)[m.generatedLine]? =
    some (List.replicate (4 * s.level) ' ' ++ s.text.toList.takeWhile (· != '\n'))
  sourceLine : m.sourceLine = s.origin.line - 1
  sourceColumn : m.sourceColumn = s.origin.column - 1

/-- **Records point at statements.**  The mappings of a tidy module point at its statements with an
origin, one record for each, in the order of the lines. -/
theorem mappings_pointAt {m : Module} (h : AllTidy m.body) (hne : layout m standardUnit ≠ []) :
    List.Forall₂ (PointsAt (SourceMap.text (layout m standardUnit)))
      (SourceMap.mappings (layout m standardUnit)) (placedAll 0 m.body) := by
  have hrecords := SourceMap.mappingsFrom_records 0 (layout m standardUnit)
  rw [filter_layout, List.forall₂_map_right_iff] at hrecords
  refine hrecords.imp fun record s hrecord => ?_
  obtain ⟨p, hp, hline, hcolumn⟩ := hrecord.origin
  cases hp
  have hindent := toList_times_standardUnit s.level
  refine ⟨?_, ?_, hline, hcolumn⟩
  · rw [hrecord.column, Placed.line, ← String.length_toList, hindent, List.length_replicate]
  · have hfound := hrecord.found
    rw [Nat.sub_zero] at hfound
    rw [SourceMap.lines_text hne (unbroken_layout h), List.getElem?_append_left, List.getElem?_map,
      hfound]
    · simp [Placed.line, hindent]
    · simpa using (List.getElem?_eq_some_iff.1 hfound).1

end Code

/-! ## Modules -/

namespace Synthesis

open Code

theorem allTidy_append {ss ts : List Stmt} (hs : AllTidy ss) (ht : AllTidy ts) :
    AllTidy (ss ++ ts) := by
  induction ss with
  | nil => exact ht
  | cons s ss ih => exact ⟨hs.1, ih hs.2⟩

/-- A statement of one line is tidy, whatever its text is. -/
theorem allTidy_lines {ss : List Stmt} (h : ∀ s ∈ ss, ∃ text origin, s = .line text origin) :
    AllTidy ss := by
  induction ss with
  | nil => trivial
  | cons s ss ih =>
    rw [List.forall_mem_cons] at h
    obtain ⟨⟨text, origin, rfl⟩, hss⟩ := h
    exact ⟨trivial, ih hss⟩

theorem allTidy_importTable (place : String → Option Position) (imports : List String) :
    AllTidy (importTable place imports) := by
  rw [importTable]
  split
  · trivial
  · refine ⟨by simp [Tidy, Text.OneLine], ⟨allTidy_lines ?_, ?_⟩, trivial, trivial⟩
    · intro s hs
      obtain ⟨statement, -, rfl⟩ := List.mem_map.1 hs
      exact ⟨_, _, rfl⟩
    · simp [Text.OneLine]

theorem allTidy_componentTable (place : String → Option Position) (parts : Script.Parts) :
    AllTidy (componentTable place parts) := by
  rw [componentTable]
  split
  · exact ⟨trivial, trivial⟩
  · refine ⟨by simp [Tidy, Text.OneLine], ⟨allTidy_lines ?_, ?_⟩, trivial⟩
    · intro s hs
      obtain ⟨c, -, rfl⟩ := List.mem_map.1 hs
      exact ⟨_, _, rfl⟩
    · simp [Text.OneLine]

theorem allTidy_renderBody (o : Options) (place : String → Option Position) (parts : Script.Parts)
    (start : Position) : AllTidy (renderBody o place parts start) := by
  refine allTidy_append (allTidy_append ⟨trivial, trivial, trivial⟩ (allTidy_lines ?_))
    ⟨trivial, trivial, trivial⟩
  intro s hs
  obtain ⟨statement, -, hstatement⟩ := List.mem_filterMap.1 hs
  obtain ⟨text, -, rfl⟩ := Option.map_eq_some_iff.1 hstatement
  exact ⟨_, _, rfl⟩

/-- **Every module is tidy.**  Its comments and closing lines are always the same. -/
theorem tidy_moduleOf (outline : Outline) (o : Options) : AllTidy (moduleOf outline o).body := by
  refine allTidy_append (allTidy_append (allTidy_append (allTidy_append ?_
    (allTidy_importTable _ _)) (allTidy_componentTable _ _)) ?_) ?_
  · exact ⟨trivial, trivial, trivial, trivial, trivial, trivial, trivial⟩
  · exact ⟨trivial, trivial, trivial, trivial,
      ⟨allTidy_renderBody _ _ _ _, fun text htext => nomatch htext⟩, trivial⟩
  · split
    · exact ⟨trivial, trivial, by simp [Tidy, Text.OneLine], trivial, trivial⟩
    · trivial

/-- The code of a module is the text of its lines, with and without a source map. -/
theorem code_finish (m : Module) (o : Options) :
    (finish m o).code = SourceMap.text (layout m standardUnit) := by
  have hmapped : SourceMap.mappedWriter.value (render SourceMap.mappedWriter m standardUnit) =
      SourceMap.text (layout m standardUnit) :=
    congrArg SourceMap.text (SourceMap.foldl_mappedWriter [] _)
  rw [finish]
  split
  · exact hmapped
  · exact (SourceMap.value_textWriter _).trans hmapped

theorem map_finish (m : Module) {o : Options} (h : o.sourceMap = true) :
    (finish m o).map = some (SourceMap.toDatum (layout m standardUnit) o.filename o.source
      (moduleName o.filename)) := by
  rw [finish, if_pos h, render, SourceMap.foldl_mappedWriter]
  rfl

/-- **A source map changes nothing in the code and points at its statements.**  With a source map, a
document has the same code as without.  The map decodes to records that point at the statements of
the module with an origin: one record for each of them, in the order of the lines. -/
theorem sourceMap_pointsAt (f : Markup.Fragment) (o : Options) :
    (synthesize f { o with sourceMap := true }).code =
        (synthesize f { o with sourceMap := false }).code ∧
      ∃ map text records,
        (synthesize f { o with sourceMap := true }).map = some map ∧
        map.get? "mappings" = some (.string text) ∧
        SourceMap.decode text = .ok records ∧
        List.Forall₂ (PointsAt (synthesize f { o with sourceMap := true }).code) records
          (placedAll 0 (moduleOf (.ofFragment f) o).body) ∧
        records.Pairwise fun r r' => r.generatedLine < r'.generatedLine := by
  let lines := layout (moduleOf (.ofFragment f) o) standardUnit
  have hne : lines ≠ [] := by simp [lines, layout, moduleOf]
  have hcode (mapped : Bool) :
      (synthesize f { o with sourceMap := mapped }).code = SourceMap.text lines :=
    code_finish _ _
  rw [hcode, hcode]
  refine ⟨rfl, _, SourceMap.encode lines, SourceMap.mappings lines, map_finish _ rfl, rfl, ?_,
    mappings_pointAt (tidy_moduleOf _ o) hne, SourceMap.mappingsFrom_pairwise 0 lines⟩
  rw [SourceMap.encode, SourceMap.decode_intercalate (SourceMap.unmarked_groupsFrom 0 0 lines),
    SourceMap.decodeGroups_groupsFrom]
  rfl

end Synthesis

end Atoll
