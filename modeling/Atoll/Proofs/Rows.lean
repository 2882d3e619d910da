import Atoll.Proofs.Tracing

/-!
# The lines that carry the statements of a script

A module has a line for each import of its script and a line for each statement that it executes,
and the source map leads from these lines to the places of the statements.

* `SourceMap.mem_mappings`, `SourceMap.eq_of_mem_mappings` — a line with an origin has a record, and
  no second one.
* `Code.HasRows` — lines of one row each stand under a head line.
  `hasRows_imports` and `hasRows_executions` find them in a module.
* `Carries` — in the code of a module, a row under a head line leads to a place.
* `synthesize_carries` — **the rows lead to where the statements were taken**, as far as the search
  for them goes right.
-/

set_option autoImplicit false

namespace Atoll

/-! ## Records of lines -/

namespace SourceMap

variable {line : GeneratedLine} {lines : List GeneratedLine}

theorem mem_mappingsFrom (number : Nat) {i : Nat} (hline : lines[i]? = some line) {p : Position}
    (hp : line.origin = some p) :
    (⟨number + i, line.column, p.line - 1, p.column - 1⟩ : Mapping) ∈
      mappingsFrom number lines := by
  induction lines generalizing number i with
  | nil => simp at hline
  | cons l rest ih =>
    rw [mappingsFrom, List.mem_append]
    rcases i with _ | i
    · left
      cases hline
      simp [lineMapping?, hp]
    · right
      have hmem := ih (number + 1) hline
      rwa [Nat.add_right_comm] at hmem

theorem mem_mappings {i : Nat} (hline : lines[i]? = some line) {p : Position}
    (hp : line.origin = some p) :
    (⟨i, line.column, p.line - 1, p.column - 1⟩ : Mapping) ∈ mappings lines := by
  have hmem := mem_mappingsFrom 0 hline hp
  rwa [Nat.zero_add] at hmem

/-- A line has one record. -/
theorem eq_of_mem_mappings {r r' : Mapping} (hr : r ∈ mappings lines) (hr' : r' ∈ mappings lines)
    (h : r.generatedLine = r'.generatedLine) : r = r' := by
  have hnodup : ((mappings lines).map Mapping.generatedLine).Nodup :=
    List.pairwise_map.2 ((mappingsFrom_pairwise 0 lines).imp fun hlt => Nat.ne_of_lt hlt)
  exact List.inj_on_of_nodup_map hnodup hr hr' h

end SourceMap

/-! ## Rows -/

namespace Code

open Text (OneLine)

theorem layoutStmts_append (unit : String) (level : Nat) (ss ts : List Stmt) :
    layoutStmts unit level (ss ++ ts) = layoutStmts unit level ss ++ layoutStmts unit level ts := by
  induction ss with
  | nil => rfl
  | cons s ss ih => rw [List.cons_append, layoutStmts, layoutStmts, ih, List.append_assoc]

theorem indented_oneLine (indent : String) {text : String} (h : OneLine text)
    (origin : Option Position) :
    indented indent text origin = [⟨indent ++ text, origin, indent.length⟩] := by
  rw [indented, Text.lines_of_oneLine h, List.map_singleton, String.ofList_toList]
  rfl

/-- A row: a text and where it comes from. -/
abbrev Row :=
  String × Option Position

variable {rows : List Row}

/-- A row as a statement. -/
def Row.stmt (r : Row) : Stmt :=
  .line r.1 r.2

/-- A row one level deep. -/
def Row.line (r : Row) : GeneratedLine :=
  ⟨standardUnit ++ r.1, r.2, 4⟩

theorem layoutStmts_rows (h : ∀ r ∈ rows, OneLine r.1) :
    layoutStmts standardUnit 1 (rows.map Row.stmt) = rows.map Row.line := by
  induction rows with
  | nil => rfl
  | cons r rows ih =>
    obtain ⟨hr, hrows⟩ := List.forall_mem_cons.1 h
    rw [List.map_cons, layoutStmts, ih hrows, Row.stmt, layoutStmt, indented_oneLine _ hr]
    rfl

/-- Rows stand one level deep under a head line. -/
def HasRows (lines : List GeneratedLine) (head : String) (rows : List Row) : Prop :=
  ∃ front line behind, line.text = head ∧ lines = front ++ line :: (rows.map Row.line ++ behind)

namespace HasRows

variable {lines : List GeneratedLine} {head : String} {rows : List Row}

theorem behind (h : HasRows lines head rows) (more : List GeneratedLine) :
    HasRows (more ++ lines) head rows := by
  obtain ⟨front, line, behind, hline, rfl⟩ := h
  exact ⟨more ++ front, line, behind, hline, (List.append_assoc ..).symm⟩

theorem before (h : HasRows lines head rows) (more : List GeneratedLine) :
    HasRows (lines ++ more) head rows := by
  obtain ⟨front, line, behind, hline, rfl⟩ := h
  refine ⟨front, line, behind ++ more, hline, ?_⟩
  rw [List.append_assoc, List.cons_append, List.append_assoc]

end HasRows

theorem hasRows_block {header : String} (hheader : OneLine header) (hrows : ∀ r ∈ rows, OneLine r.1)
    (footer : String) :
    HasRows (layoutStmt standardUnit 0 (.block header (rows.map Row.stmt) (some footer) none))
      header rows := by
  have hindent : Text.times (0 : Nat) standardUnit = "" := rfl
  refine ⟨[], ⟨header, none, 0⟩, [plainLine footer], rfl, ?_⟩
  rw [layoutStmt, hindent, indented_oneLine _ hheader, layoutStmts_rows hrows]
  simp

end Code

namespace Synthesis

open Code
open Text
open Script (Kept placedStatements)

/-! ## Modules -/

/-- The line above the imports. -/
def importsHead : String :=
  "IMPORTS = ("

/-- The line above the statements that are executed. -/
def scopeHead : String :=
  "    scope = runtime.Scope(context.names())"

/-- The row of an import. -/
def importRow (statement : String) : String :=
  quoted statement ++ ","

/-- The row of a statement that is executed; `text` is the statement without its types. -/
def executionRow (text : String) : String :=
  "scope.execute(" ++ quoted text ++ ")"

/-- The statements of a script that its module executes, each with what is left of it without
types. -/
def executions (code : String) : List (String × String) :=
  (Script.parts code).statements.filterMap fun statement =>
    (Script.plain? statement).map (statement, ·)

/-- The rows of imports. -/
def importRows (place : String → Option Position) (imports : List String) : List Row :=
  imports.map fun statement => (importRow statement, place statement)

/-- The rows of statements that are executed. -/
def executionRows (place : String → Option Position) (es : List (String × String)) : List Row :=
  es.map fun e => (executionRow e.2, place e.1)

theorem oneLine_importRows (place : String → Option Position) (imports : List String) :
    ∀ r ∈ importRows place imports, OneLine r.1 := by
  intro r hr
  obtain ⟨statement, -, rfl⟩ := List.mem_map.1 hr
  exact (oneLine_quoted statement).append (by simp [OneLine])

theorem oneLine_executionRows (place : String → Option Position) (es : List (String × String)) :
    ∀ r ∈ executionRows place es, OneLine r.1 := by
  intro r hr
  obtain ⟨e, -, rfl⟩ := List.mem_map.1 hr
  exact (OneLine.append (by simp [OneLine]) (oneLine_quoted e.2)).append (by simp [OneLine])

theorem hasRows_importTable (place : String → Option Position) {imports : List String}
    (hne : imports ≠ []) :
    HasRows (layoutStmts standardUnit 0 (importTable place imports)) importsHead
      (importRows place imports) := by
  have hblock := hasRows_block (by simp [OneLine, importsHead] : OneLine importsHead)
    (oneLine_importRows place imports) ")"
  rw [importRows, List.map_map] at hblock
  have hempty : imports.isEmpty = false := by simpa using hne
  rw [importTable, hempty]
  exact (hblock.before _).behind _

theorem hasRows_renderBody (o : Options) (place : String → Option Position) (code : String)
    (start : Position) :
    HasRows (layoutStmts standardUnit 1 (renderBody o place (Script.parts code) start)) scopeHead
      (executionRows place (executions code)) := by
  have hrows : layoutStmts standardUnit 1
      ((Script.parts code).statements.filterMap (executeStmt? place)) =
        (executionRows place (executions code)).map Row.line := by
    rw [← layoutStmts_rows (oneLine_executionRows place _), executionRows, executions, List.map_map,
      List.map_filterMap]
    refine congrArg _ (List.filterMap_congr fun statement _ => ?_)
    rw [executeStmt?, Option.map_map]
    rfl
  rw [renderBody, layoutStmts_append, layoutStmts_append, hrows]
  refine HasRows.before ?_ _
  exact ⟨[_], _, [], rfl, by rw [List.append_nil]; rfl⟩

section Module

variable {outline : Outline} {code : String} {start : Option Position}

/-- **The imports of a script are rows of its module.** -/
theorem hasRows_imports (hscript : outline.script = some (code, start)) (o : Options)
    (hne : (Script.parts code).imports ≠ []) :
    HasRows (layout (moduleOf outline o) standardUnit) importsHead
      (importRows (locate outline o.source) (Script.parts code).imports) := by
  rw [layout, moduleOf]
  simp only [hscript, layoutStmts_append]
  exact ((((hasRows_importTable _ hne).behind _).before _).before _ |>.before _).behind _

/-- **The statements that are executed are rows of the module.** -/
theorem hasRows_executions (hscript : outline.script = some (code, start)) (o : Options) :
    HasRows (layout (moduleOf outline o) standardUnit) scopeHead
      (executionRows (locate outline o.source) (executions code)) := by
  have hblock : HasRows (layoutStmt standardUnit 0 (.block renderHead
      (renderBody o (locate outline o.source) (Script.parts code) outline.start) none none))
        scopeHead (executionRows (locate outline o.source) (executions code)) :=
    ((hasRows_renderBody o (locate outline o.source) code outline.start).behind _).before _
  rw [layout, moduleOf]
  simp only [hscript, layoutStmts_append]
  exact (((((((hblock.before _).behind _).behind _).behind _).behind _).behind _).before _).behind _

end Module

/-! ## Where the rows lead -/

/-- In the code of a module, the `j`-th line under a head line is a row one level deep.  It has a
record, which leads from the first character of the row to a place, and no other record. -/
def Carries (code : String) (records : List SourceMap.Mapping) (head : String) (j : Nat)
    (row : String) (p : Position) : Prop :=
  ∃ n, (Text.lines code.toList)[n]? = some head.toList ∧
    (Text.lines code.toList)[n + 1 + j]? = some ("    ".toList ++ row.toList) ∧
    ∀ r, r ∈ records ∧ r.generatedLine = n + 1 + j ↔
      r = ⟨n + 1 + j, 4, p.line - 1, p.column - 1⟩

theorem carries_of_hasRows {m : Module} (htidy : AllTidy m.body)
    (hne : layout m standardUnit ≠ []) {head : String} {rows : List Row}
    (h : HasRows (layout m standardUnit) head rows) {j : Nat} {row : String} {p : Position}
    (hrow : rows[j]? = some (row, some p)) :
    Carries (SourceMap.text (layout m standardUnit)) (SourceMap.mappings (layout m standardUnit))
      head j row p := by
  obtain ⟨front, line, behind, rfl, hlines⟩ := h
  have hhead : (layout m standardUnit)[front.length]? = some line := by
    rw [hlines, List.getElem?_append_right (Nat.le_refl _), Nat.sub_self]
    rfl
  have hline : (layout m standardUnit)[front.length + 1 + j]? = some (Row.line (row, some p)) := by
    have hlt : j < (rows.map Row.line).length := by
      rw [List.length_map]
      exact (List.getElem?_eq_some_iff.1 hrow).1
    rw [hlines, Nat.add_assoc, List.getElem?_append_right (Nat.le_add_right _ _),
      Nat.add_sub_cancel_left, Nat.add_comm 1 j, List.getElem?_cons_succ,
      List.getElem?_append_left hlt, List.getElem?_map, hrow]
    rfl
  -- the lines of the code are the lines of the layout
  have hget : ∀ {i : Nat} {l : GeneratedLine}, (layout m standardUnit)[i]? = some l →
      (Text.lines (SourceMap.text (layout m standardUnit)).toList)[i]? = some l.text.toList := by
    intro i l hl
    rw [SourceMap.lines_text hne (unbroken_layout htidy), List.getElem?_append_left,
      List.getElem?_map, hl]
    · rfl
    · simpa using (List.getElem?_eq_some_iff.1 hl).1
  refine ⟨front.length, hget hhead, ?_, fun r => ?_⟩
  · rw [hget hline, Row.line, String.toList_append]
    rfl
  · have hmem := SourceMap.mem_mappings hline rfl
    constructor
    · rintro ⟨hr, hnumber⟩
      exact SourceMap.eq_of_mem_mappings hr hmem hnumber
    · rintro rfl
      exact ⟨hmem, rfl⟩

/-- The rows that carry a statement lead to the place where it is looked up. -/
theorem carries_locate {source code : String} {span : Span} (o : Options)
    (hscript : (Markup.parse source).tree.frontmatter? = some (code, span)) {statement : String}
    {p : Position} (hplace : locate (.ofFragment (Markup.parse source).tree) (some source)
      statement = some p) :
    let result := synthesize (Markup.parse source).tree
      { o with sourceMap := true, source := some source }
    ∃ map text records, result.map = some map ∧ map.get? "mappings" = some (.string text) ∧
      SourceMap.decode text = .ok records ∧
      (∀ j, (Script.parts code).imports[j]? = some statement →
        Carries result.code records importsHead j (importRow statement) p) ∧
      ∀ j t, (executions code)[j]? = some (statement, t) →
        Carries result.code records scopeHead j (executionRow t) p := by
  intro result
  let options : Options := { o with sourceMap := true, source := some source }
  let outline := Outline.ofFragment (Markup.parse source).tree
  let lines := layout (moduleOf outline options) standardUnit
  have hlines : lines ≠ [] := by simp [lines, layout, moduleOf]
  have houtline : outline.script = some (code, some span.start) := by
    simp [outline, Outline.ofFragment, hscript]
  have hcode : result.code = SourceMap.text lines := code_finish _ _
  rw [hcode]
  refine ⟨_, SourceMap.encode lines, SourceMap.mappings lines, map_finish _ rfl, rfl, ?_,
    fun j hj => ?_, fun j t hj => ?_⟩
  · rw [SourceMap.encode, SourceMap.decode_intercalate (SourceMap.unmarked_groupsFrom 0 0 lines),
      SourceMap.decodeGroups_groupsFrom]
    rfl
  · have himports : (Script.parts code).imports ≠ [] := by
      rintro hnil
      simp [hnil] at hj
    refine carries_of_hasRows (tidy_moduleOf outline options) hlines
      (hasRows_imports houtline options himports) ?_
    rw [importRows, List.getElem?_map, hj, Option.map_some, ← hplace]
  · refine carries_of_hasRows (tidy_moduleOf outline options) hlines
      (hasRows_executions houtline options) ?_
    rw [executionRows, List.getElem?_map, hj, Option.map_some, ← hplace]

/-- **The source map leads to where the statements were taken.**  A document has a script, and a
statement of it differs from all statements before it and has no comment in its first line.  If the
search for the first lines goes right up to this statement, then every row of the module that
carries it, among the imports or among the statements that are executed, leads to the line and the
column of its first character in the document. -/
theorem synthesize_carries {source code : String} {span : Span} (o : Options)
    (hscript : (Markup.parse source).tree.frontmatter? = some (code, span))
    {before after : List (List Kept)} {st : List Kept}
    (hsplit : placedStatements (scriptStart (unifyNewlines source.toList)) code.toList =
      before ++ st :: after)
    (hnew : ∀ b ∈ before, Kept.text b ≠ Kept.text st) (hwhole : Kept.Whole (Kept.firstLine st))
    (htraced : Traced (unifyNewlines source.toList) (scriptStart (unifyNewlines source.toList))
      (before ++ [st])) :
    let s := unifyNewlines source.toList
    let result := synthesize (Markup.parse source).tree
      { o with sourceMap := true, source := some source }
    let place := Position.ofOffset s (Kept.origin st)
    code.toList <+: s.drop (scriptStart s) ∧
      Kept.text st ∈ (Script.parts code).imports ++ (Script.parts code).statements ∧
      ∃ map text records, result.map = some map ∧ map.get? "mappings" = some (.string text) ∧
        SourceMap.decode text = .ok records ∧
        (∀ j, (Script.parts code).imports[j]? = some (Kept.text st) →
          Carries result.code records importsHead j (importRow (Kept.text st)) place) ∧
        ∀ j t, (executions code)[j]? = some (Kept.text st, t) →
          Carries result.code records scopeHead j (executionRow t) place := by
  intro s result place
  have hne := ne_empty_of_placedStatements hsplit
  have hmem : Kept.text st ∈ Script.statements code := by
    rw [← Script.texts_placedStatements (scriptStart s), hsplit]
    simp
  exact ⟨(findFrom?_script hscript hne).1, List.mem_append.2 (List.mem_partition.1 hmem),
    carries_locate o hscript (locate_traced hscript hsplit hnew hwhole htraced)⟩

/-- Characters side by side from an offset on. -/
def sideBySide (offset : Nat) (text : String) : List Kept :=
  (text.toList.zipIdx offset).map fun c => ⟨c.2, c.1⟩

/-- A script of a comment and two statements in one line. -/
def twoStatements : String :=
  "---\n// one, two\nconst a = 1; const b = 2\n---\n\x7bb\x7d"

/-- Both statements are found; the second one is executed in the second row. -/
theorem synthesize_carries_second :
    let result := synthesize (Markup.parse twoStatements).tree
      { Options.default with sourceMap := true, source := some twoStatements }
    ∃ map text records, result.map = some map ∧ map.get? "mappings" = some (.string text) ∧
      SourceMap.decode text = .ok records ∧
      Carries result.code records scopeHead 1 "scope.execute('const b = 2')" ⟨3, 14, 29⟩ := by
  have hscript : (Markup.parse twoStatements).tree.frontmatter? =
      some ("// one, two\nconst a = 1; const b = 2", ⟨⟨1, 1, 0⟩, ⟨4, 4, 44⟩⟩) := by cbv
  have hsplit : placedStatements (scriptStart (unifyNewlines twoStatements.toList))
      "// one, two\nconst a = 1; const b = 2".toList =
        [sideBySide 16 "const a = 1"] ++ sideBySide 29 "const b = 2" :: [] := by decide
  have hfirst : ∀ p, 4 ≤ p → p < 16 →
      ¬"const a = 1".toList <+: (unifyNewlines twoStatements.toList).drop p := by decide
  have hsecond : ∀ p, 27 ≤ p → p < 29 →
      ¬"const b = 2".toList <+: (unifyNewlines twoStatements.toList).drop p := by decide
  obtain ⟨-, -, map, text, records, hmap, htext, hrecords, -, hrows⟩ :=
    synthesize_carries Options.default hscript hsplit (by decide) (by decide)
      (.found (by decide) hfirst (.found (by decide) hsecond .nil))
  exact ⟨map, text, records, hmap, htext, hrecords, hrows 1 "const b = 2" (by decide)⟩

/-- A script whose first line says in a comment what its second line says. -/
def announcedStatement : String :=
  "---\n// const a = 1\nconst a = 1\n---\n<p>\x7ba\x7d</p>"

/-- The search does not know about comments: the statement of the second line is new and in one
piece, but its row leads to the comment. -/
theorem synthesize_carries_comment :
    let s := unifyNewlines announcedStatement.toList
    let code := "// const a = 1\nconst a = 1"
    let result := synthesize (Markup.parse announcedStatement).tree
      { Options.default with sourceMap := true, source := some announcedStatement }
    (∃ span, (Markup.parse announcedStatement).tree.frontmatter? = some (code, span)) ∧
      placedStatements (scriptStart s) code.toList = [sideBySide 19 "const a = 1"] ∧
      Position.ofOffset s 19 = ⟨3, 1, 19⟩ ∧
      ∃ map text records, result.map = some map ∧ map.get? "mappings" = some (.string text) ∧
        SourceMap.decode text = .ok records ∧
        Carries result.code records scopeHead 0 "scope.execute('const a = 1')" ⟨2, 4, 7⟩ := by
  intro s code result
  have hscript : (Markup.parse announcedStatement).tree.frontmatter? =
      some (code, ⟨⟨1, 1, 0⟩, ⟨4, 4, 34⟩⟩) := by cbv
  have hlocate : locate (.ofFragment (Markup.parse announcedStatement).tree)
      (some announcedStatement) "const a = 1" = some ⟨2, 4, 7⟩ := by
    rw [locate, Outline.ofFragment, hscript]
    decide
  obtain ⟨map, text, records, hmap, htext, hrecords, -, hrows⟩ :=
    carries_locate Options.default hscript hlocate
  exact ⟨⟨_, hscript⟩, by decide, by decide, map, text, records, hmap, htext, hrecords,
    hrows 0 "const a = 1" (by decide)⟩

end Synthesis
end Atoll
