import Atoll.Expr.Evaluator
import Atoll.Proofs.Json
import Atoll.Proofs.Relabelling
import Atoll.Proofs.RoundTrip
import Mathlib

/-!
# JSON is a language of expressions

A value of null, truth values, texts, lists and objects is written as JSON.  That text is also an
expression: read as one, it makes the value again, and so does reading it as JSON.

* `Value.Plain n v` — such a value, nested at most `n` levels; `Value.unlabelled` forgets which list
  or object it is and nothing else.
* `Expr.Quotes`, `quotes_writeChar` — the escapes of JSON are escapes of expressions.
* `Expr.Spelling text ls` — the lexer finds the lexemes `ls` in a text, whatever follows;
  `spelling_writeItems` puts such texts between brackets.
* `Expr.Denotes n text ls e v` — a text is an expression for a value: how it is spelled, what the
  parser makes of it and what that makes when it is evaluated.  `denotes_array` and
  `denotes_object` go from the parts to the whole.
* `Value.Plain.denotes` — **the JSON of a plain value denotes it**, by induction on the value.
* `evaluate_stringified` — hence the calls that write and read JSON, and the evaluation of the text
  that is written, all give the value back; `evaluate_parseCall_vastIndent` is an indent that cannot
  be made.
-/

set_option autoImplicit false

namespace Atoll

open Text

/-! ## Lists of data -/

namespace Json

theorem writeAll_eq_map (style : Style) (level : Nat) (ds : List Datum) :
    writeAll style level ds = ds.map (writeAt style level) := by
  induction ds with
  | nil => rfl
  | cons d ds ih => rw [writeAll, ih, List.map_cons]

theorem allStorable_eq_all (ds : List Datum) : allStorable ds = ds.all isStorable := by
  induction ds with
  | nil => rfl
  | cons d ds ih => rw [allStorable, ih, List.all_cons]

theorem depthAll_le_iff {ds : List Datum} {k : Nat} :
    Stored.depthAll ds ≤ k ↔ ∀ d ∈ ds, Stored.depthOf d ≤ k := by
  induction ds with
  | nil => simp [Stored.depthAll]
  | cons d ds ih => rw [Stored.depthAll, Nat.max_le, ih, List.forall_mem_cons]

end Json

/-! ## Entries under different keys -/

theorem Entries.ofBindings_cons (m : String × Value) (members : Bindings) :
    Entries.ofBindings (m :: members) = (.string m.1, m.2) :: Entries.ofBindings members :=
  rfl

theorem Entries.set_ofBindings {done : Bindings} {key : String} (h : key ∉ done.map Prod.fst)
    (v : Value) : Entries.set (.string key) v (Entries.ofBindings done) =
      Entries.ofBindings (done ++ [(key, v)]) := by
  induction done with
  | nil => rfl
  | cons m done ih =>
    rw [List.map_cons, List.mem_cons, not_or] at h
    have hkey : Entries.sameKey (.string m.1) (.string key) = false :=
      beq_eq_false_iff_ne.2 (Ne.symm h.1)
    rw [ofBindings_cons, Entries.set, hkey, ih h.2]
    rfl

/-! ## Plain values -/

namespace Value

variable {n : Nat} {v : Value} {members : Bindings}

/-- A value of null, truth values, texts, lists and objects whose keys are texts, nested at most `n`
levels. -/
inductive Plain : Nat → Value → Prop where
  | null (n : Nat) : Plain (n + 1) .null
  | bool (n : Nat) (b : Bool) : Plain (n + 1) (.bool b)
  | string (n : Nat) (s : String) : Plain (n + 1) (.string s)
  | array {n : Nat} {items : List Value} (label : Label) (hitems : ∀ v ∈ items, Plain n v) :
      Plain (n + 1) (.array label items)
  | object {n : Nat} {members : Bindings} (label : Label) (hkeys : (members.map Prod.fst).Nodup)
      (hmembers : ∀ m ∈ members, Plain n m.2) :
      Plain (n + 1) (.object label (Entries.ofBindings members))

/-- What there is to a value but for the identity of its lists and objects. -/
def unlabelled (v : Value) : Value :=
  v.relabel fun _ => []

theorem unlabelled_array (label : Label) (items : List Value) :
    (Value.array label items).unlabelled = .array [] (items.map unlabelled) := by
  rw [unlabelled, relabel, relabelAll_eq_map]
  rfl

theorem unlabelled_object (label : Label) (members : Bindings) :
    (Value.object label (Entries.ofBindings members)).unlabelled =
      .object [] (Entries.ofBindings (members.map (Prod.map id unlabelled))) := by
  rw [unlabelled, relabel, relabelEntries_eq_map, Entries.ofBindings, Entries.ofBindings,
    List.map_map, List.map_map]
  rfl

/-! ## The data of plain values -/

theorem toData_eq_map (vs : List Value) : toData vs = vs.map toDatum := by
  induction vs with
  | nil => rfl
  | cons v vs ih => rw [toData, ih, List.map_cons]

theorem Plain.isExported (h : v.Plain n) : v.isExported = true := by
  cases h <;> rfl

theorem toDataEntries_ofBindings (h : ∀ m ∈ members, m.2.isExported = true) :
    toDataEntries (Entries.ofBindings members) = members.map (Prod.map id toDatum) := by
  induction members with
  | nil => rfl
  | cons m members ih =>
    rw [List.forall_mem_cons] at h
    rw [Entries.ofBindings_cons, toDataEntries, h.1, if_pos rfl, ih h.2]
    rfl

theorem toDatum_object (hkeys : (members.map Prod.fst).Nodup)
    (hmembers : ∀ m ∈ members, m.2.Plain n) (label : Label) :
    (Value.object label (Entries.ofBindings members)).toDatum =
      .object (members.map (Prod.map id toDatum)) := by
  rw [toDatum, toDataEntries_ofBindings fun m hm => (hmembers m hm).isExported,
    setEntries_of_nodup, List.nil_append]
  rw [List.nil_append, List.map_map]
  exact hkeys

theorem anyLongKey_eq_false {vs : List Value} (h : ∀ v ∈ vs, v.hasLongKey = false) :
    anyLongKey vs = false := by
  induction vs with
  | nil => rfl
  | cons v vs ih =>
    rw [List.forall_mem_cons] at h
    rw [anyLongKey, h.1, ih h.2]
    rfl

theorem longKeyAmong_eq_false (h : ∀ m ∈ members, m.2.hasLongKey = false) :
    longKeyAmong (Entries.ofBindings members) = false := by
  induction members with
  | nil => rfl
  | cons m members ih =>
    rw [List.forall_mem_cons] at h
    rw [Entries.ofBindings_cons, longKeyAmong, h.1, ih h.2]
    simp [isLongKey]

/-- Plain values are data. -/
theorem Plain.exported (h : v.Plain n) : v.exported = .ok v.toDatum := by
  have hshort : v.hasLongKey = false := by
    induction h with
    | null | bool | string => rfl
    | array label _ ih => exact anyLongKey_eq_false ih
    | object label _ _ ih => exact longKeyAmong_eq_false ih
  rw [Value.exported, hshort]
  rfl

/-- The data of plain values is read back from its text. -/
theorem Plain.storable (h : v.Plain n) : Json.isStorable v.toDatum = true := by
  induction h with
  | null | bool | string => rfl
  | array label _ ih =>
    rw [toDatum, toData_eq_map, Json.isStorable, Json.allStorable_eq_all, List.all_map,
      List.all_eq_true]
    exact ih
  | object label hkeys hmembers ih =>
    rw [toDatum_object hkeys hmembers, Json.isStorable, Json.entriesStorable_eq_all,
      Bool.and_eq_true, decide_eq_true_eq, List.map_map, List.all_map, List.all_eq_true]
    exact ⟨hkeys, ih⟩

theorem Plain.depth_le (h : v.Plain n) : Stored.depthOf v.toDatum ≤ n := by
  induction h with
  | null n | bool n | string n => exact Nat.succ_le_succ (Nat.zero_le n)
  | array label _ ih =>
    rw [toDatum, toData_eq_map, Stored.depthOf]
    exact Nat.succ_le_succ (Json.depthAll_le_iff.2 (List.forall_mem_map.2 ih))
  | object label hkeys hmembers ih =>
    rw [toDatum_object hkeys hmembers, Stored.depthOf]
    exact Nat.succ_le_succ (Json.depthEntries_le_iff.2 (List.forall_mem_map.2 ih))

/-- Lists are made of data item by item. -/
theorem unlabelled_ofData {items : List Value}
    (h : ∀ v ∈ items, ∀ label, (ofDatum label v.toDatum).unlabelled = v.unlabelled)
    (label : Label) (i : Nat) :
    (ofData label i (items.map toDatum)).map unlabelled = items.map unlabelled := by
  induction items generalizing i with
  | nil => rfl
  | cons v items ih =>
    rw [List.forall_mem_cons] at h
    rw [List.map_cons, ofData, List.map_cons, List.map_cons, h.1, ih h.2]

/-- Objects are made of data entry by entry. -/
theorem unlabelled_ofDataEntries
    (h : ∀ m ∈ members, ∀ label, (ofDatum label m.2.toDatum).unlabelled = m.2.unlabelled)
    (label : Label) (i : Nat) : ∃ made : Bindings,
      ofDataEntries label i (members.map (Prod.map id toDatum)) = Entries.ofBindings made ∧
        made.map (Prod.map id unlabelled) = members.map (Prod.map id unlabelled) := by
  induction members generalizing i with
  | nil => exact ⟨[], rfl, rfl⟩
  | cons m members ih =>
    rw [List.forall_mem_cons] at h
    obtain ⟨made, hmade, hsame⟩ := ih h.2 (i + 1)
    refine ⟨(m.1, ofDatum (i :: label) m.2.toDatum) :: made, ?_, ?_⟩
    · rw [List.map_cons, Prod.map, ofDataEntries, hmade]
      rfl
    · rw [List.map_cons, List.map_cons, hsame, Prod.map, Prod.map, h.1]

/-- Data made of a plain value makes that value again. -/
theorem Plain.unlabelled_ofDatum (h : v.Plain n) (label : Label) :
    (ofDatum label v.toDatum).unlabelled = v.unlabelled := by
  induction h generalizing label with
  | null | bool | string => rfl
  | array _ _ ih =>
    rw [toDatum, toData_eq_map, ofDatum, unlabelled_array, unlabelled_array, unlabelled_ofData ih]
  | object _ hkeys hmembers ih =>
    obtain ⟨made, hmade, hsame⟩ := unlabelled_ofDataEntries ih label 0
    rw [toDatum_object hkeys hmembers, ofDatum, hmade, unlabelled_object, unlabelled_object, hsame]

end Value

/-! ## Lexemes -/

namespace Expr

variable {source : String} {c : Char} {gap : List Char} {n : Nat} {style : Json.Style}
  {ls : List Lexeme}

/-- The text is read as the lexemes, wherever it stands. -/
def Lexes (s : List Char) (ls : List Lexeme) : Prop :=
  ∀ source offset, ∃ ts, lexFrom source offset s = .ok ts ∧ Spells ts ls

/-- Nothing here goes on with a name. -/
def EndsName (s : List Char) : Prop :=
  ∀ c ∈ s.head?, isNamePart c = false

/-- The character is a symbol of its own, whatever follows. -/
structure Marks (c : Char) (x : Symbol) : Prop where
  scan : ∀ source s, scan source c s = .ok (some (.symbol x), 1)
  endsName : isNamePart c = false

theorem marks_comma : Marks ',' .comma := ⟨fun _ _ => rfl, by decide⟩

theorem marks_colon : Marks ':' .colon := ⟨fun _ _ => rfl, by decide⟩

theorem marks_squareOpen : Marks '[' .squareOpen := ⟨fun _ _ => rfl, by decide⟩

theorem marks_squareClose : Marks ']' .squareClose := ⟨fun _ _ => rfl, by decide⟩

theorem marks_curlyOpen : Marks '{' .curlyOpen := ⟨fun _ _ => rfl, by decide⟩

theorem marks_curlyClose : Marks '}' .curlyClose := ⟨fun _ _ => rfl, by decide⟩

theorem Marks.ends {x : Symbol} (h : Marks c x) (s : List Char) : EndsName (c :: s) := by
  rintro _ ⟨⟩
  exact h.endsName

theorem isBlank_of_isSpace (hc : Json.isSpace c = true) :
    isBlank c = true ∧ isNamePart c = false := by
  simp only [Json.isSpace, Bool.or_eq_true, beq_iff_eq] at hc
  rcases hc with ((rfl | rfl) | rfl) | rfl
  all_goals decide

theorem EndsName.blank {s : List Char} (h : EndsName s) (hgap : Json.Blank gap) :
    EndsName (gap ++ s) := by
  cases gap with
  | nil => exact h
  | cons c gap =>
    rintro _ ⟨⟩
    exact (isBlank_of_isSpace (hgap c List.mem_cons_self)).2

namespace Lexes

variable {s : List Char} {ls : List Lexeme}

theorem nil : Lexes [] [] :=
  fun source offset => ⟨[], by rw [lexFrom], rfl⟩

/-- A token in front of a text. -/
theorem cons (h : Lexes s ls) {cs : List Char} {l : Lexeme}
    (hscan : ∀ source, scan source c (cs ++ s) = .ok (some l, (c :: cs).length)) :
    Lexes (c :: cs ++ s) (l :: ls) := by
  intro source offset
  obtain ⟨ts, hts, hspells⟩ := h source (offset + (c :: cs).length)
  exact ⟨⟨l, offset⟩ :: ts, lexFrom_scan (hscan source) hts, congrArg (l :: ·) hspells⟩

theorem mark (h : Lexes s ls) {x : Symbol} (hc : Marks c x) : Lexes (c :: s) (.symbol x :: ls) :=
  (h.cons fun source => hc.scan source s : Lexes ([c] ++ s) _)

/-- Blanks in front of a text do not count. -/
theorem blank (h : Lexes s ls) (hgap : Json.Blank gap) : Lexes (gap ++ s) ls := by
  have hblank : ∀ c ∈ gap, isBlank c = true := fun c hc => (isBlank_of_isSpace (hgap c hc)).1
  intro source offset
  obtain ⟨ts, hts, hspells⟩ := h source (offset + gap.length)
  refine ⟨ts, ?_, hspells⟩
  rw [lexFrom_dropWhile] at hts ⊢
  rw [List.takeWhile_append_of_pos hblank, List.dropWhile_append_of_pos hblank,
    List.length_append, ← Nat.add_assoc]
  exact hts

end Lexes

/-- The lexemes that a text is read as, whatever follows that does not go on with a name. -/
def Spelling (text : List Char) (ls : List Lexeme) : Prop :=
  ∀ s ms, EndsName s → Lexes s ms → Lexes (text ++ s) (ls ++ ms)

theorem spelling_word {word : String} (h : isName word = true) :
    Spelling word.toList [.name word] := by
  intro s ms hs hlexes
  rw [isName] at h
  cases hword : word.toList with
  | nil =>
    rw [hword] at h
    cases h
  | cons c cs =>
    rw [hword, Bool.and_eq_true, List.all_eq_true] at h
    exact hlexes.cons fun source => scan_name source hword h.1 h.2 hs

/-! ## Strings -/

theorem hexNumber_hexPadded (width n : Nat) : hexNumber (hexPadded width n) = n := by
  obtain ⟨ds, hds, hvalue⟩ := mapM_hexPadded width n
  rw [mapM_hexValue? (isHex_of_mem_hexPadded width n), Option.some.injEq] at hds
  rw [hexNumber, hds, hvalue]

theorem hexPadded_four (h : n < 0x10000) : ∃ a b c d, hexPadded 4 n = [a, b, c, d] :=
  List.length_eq_four.1 (length_hexPadded (by decide) h)

theorem ne_of_isHex {d : Char} (hc : isHex c = true) (hd : isHex d = false) : c ≠ d := by
  rintro rfl
  exact Bool.false_ne_true (hd.symm.trans hc)

/-- Four digits behind the letter are the code of a character. -/
theorem escapeAt_hexPadded (hc : c.toNat < 0x10000) (cs : List Char) :
    escapeAt ('u' :: (hexPadded 4 c.toNat ++ cs)) = .ok ([c], 5) := by
  have hhex := isHex_of_mem_hexPadded 4 c.toNat
  have hpoint : codePoint (hexNumber (hexPadded 4 c.toNat)) = .ok c := by
    have hvalid := Json.toNat_bounds c
    rw [hexNumber_hexPadded, codePoint, if_pos (by omega), Json.scalar_toNat]
  obtain ⟨a, b, d, e, hdigits⟩ := hexPadded_four hc
  rw [hdigits] at hhex hpoint ⊢
  have hbrace : a ≠ '{' := ne_of_isHex (hhex a List.mem_cons_self) (by decide)
  have hcounted : countedHex? 'u' 4 ('u' :: ([a, b, d, e] ++ cs)) = some [a, b, d, e] := by
    have hall := List.all_eq_true.2 hhex
    simp [countedHex?, hall]
  have hbraced : bracedHex? ('u' :: ([a, b, d, e] ++ cs)) = none := by
    simp [bracedHex?, hbrace]
  rw [escapeAt, hbraced, hcounted]
  simp [hpoint, Except.map]

/-- The code of a character of the basic plane, with four digits. -/
theorem quotes_unicode (hc : c.toNat < 0x10000) : Quotes (Json.unicodeEscape c.toNat) c := by
  have hhex := isHex_of_mem_hexPadded 4 c.toNat
  have hescape := escapeAt_hexPadded hc
  obtain ⟨a, b, d, e, hdigits⟩ := hexPadded_four hc
  rw [hdigits] at hhex hescape
  rw [Json.unicodeEscape, hdigits]
  refine ⟨fun rest => ?_, fun {cs s} h => ?_⟩
  · have hplain : ∀ x ∈ [a, b, d, e], x ≠ '"' ∧ x ≠ '\\' ∧ x ≠ '\n' := fun x hx =>
      ⟨ne_of_isHex (hhex x hx) (by decide), ne_of_isHex (hhex x hx) (by decide),
        ne_of_isHex (hhex x hx) (by decide)⟩
    simp only [List.forall_mem_cons] at hplain
    obtain ⟨ha, hb, hd, he, -⟩ := hplain
    simp [quotedBody?, ha, hb, hd, he, Function.comp_def]
  · show unescapeFrom 0 ('\\' :: ('u' :: ([a, b, d, e] ++ cs))) = _
    rw [unescapeFrom, if_pos (beq_self_eq_true _), hescape]
    show (unescapeFrom 0 cs >>= fun r => .ok ([c] ++ r)) = _
    rw [h]
    rfl

/-- Whatever a character is written as in JSON, it means the character in an expression. -/
theorem quotes_writeChar (c : Char) : Quotes (Json.writeChar false c) c := by
  rcases Json.writeChar_cases false c with ⟨e, he, hmeant, hu⟩ | ⟨he, hquote, hslash, hcode⟩ |
    ⟨he, hcode⟩ | ⟨hascii, -⟩
  · have hsame : escapedChar e = [c] ∧ e ≠ 'x' ∧ e ≠ '\n' := by
      unfold Json.simpleEscape? at hmeant
      split at hmeant
      all_goals cases hmeant
      all_goals exact ⟨rfl, by decide⟩
    rw [he]
    exact quotes_escaped hsame.1 hu hsame.2.1 hsame.2.2
  · have hline : c ≠ '\n' := by
      rintro rfl
      revert hcode
      decide
    rw [he]
    exact quotes_plain hquote hslash hline
  · rw [he]
    exact quotes_unicode hcode
  · cases hascii

theorem spelling_string (s : String) :
    Spelling (Json.writeString false s).toList [.string s] := by
  intro rest ms _ hlexes
  rw [Json.writeString, String.toList_ofList]
  exact hlexes.cons fun source => scan_quoted source quotes_writeChar s rest

/-! ## Items between brackets -/

section

variable {β : Type} {spell : β → List Lexeme} {items : List β}

/-- Texts with commas between them. -/
theorem spelling_joined {text : β → List Char} (hgap : Json.Blank gap)
    (h : ∀ x ∈ items, Spelling (text x) (spell x)) :
    Spelling ((',' :: gap).intercalate (items.map text)) (commas (items.map spell)) := by
  induction items with
  | nil => exact fun s ms _ hlexes => hlexes
  | cons x items ih =>
    rw [List.forall_mem_cons] at h
    cases items with
    | nil => simpa [commas_singleton] using h.1
    | cons y items =>
      intro s ms hs hlexes
      have hmore := ((ih h.2 s ms hs hlexes).blank hgap).mark marks_comma
      have hall := h.1 _ _ (marks_comma.ends _) hmore
      simpa [List.intercalate_cons_cons, commas_cons_cons] using hall

/-- Items between brackets, in whatever style. -/
theorem spelling_writeItems (hstyle : style.IsStandard) (level : Nat) {a z : Char}
    {opening closing : Symbol} (ha : Marks a opening) (hz : Marks z closing) {text : β → String}
    (h : ∀ x ∈ items, Spelling (text x).toList (spell x)) :
    Spelling (Json.writeItems style level (String.singleton a) (String.singleton z)
      (items.map text)).toList (enclosed opening closing (commas (items.map spell))) := by
  intro s ms _ hlexes
  have hclosing : Lexes (z :: s) (.symbol closing :: ms) := hlexes.mark hz
  by_cases hitems : items = []
  · subst hitems
    simpa [Json.writeItems, enclosed, commas] using hclosing.mark ha
  · -- from the closing bracket back to the opening one
    obtain ⟨lead, gap, tail, hlead, hgap, htail, htext⟩ :=
      Json.toList_writeItems hstyle level (String.singleton a) (String.singleton z)
        (mt List.map_eq_nil_iff.1 hitems : items.map text ≠ [])
    have hjoined := spelling_joined hgap h _ _ ((hz.ends s).blank htail) (hclosing.blank htail)
    have hall := (hjoined.blank hlead).mark ha
    rw [htext, List.map_map]
    simpa [enclosed, Function.comp_def] using hall

end

/-! ## Texts that are expressions -/

/-- The expression makes the value wherever it is evaluated, if so many levels are left. -/
def Makes (n : Nat) (e : Expr) (v : Value) : Prop :=
  ∀ scopes env label, ∃ w, run scopes n (.evaluate env label e) = .ok w ∧
    w.unlabelled = v.unlabelled

/-- The text is an expression for the value, if so many levels are left to read it and to evaluate
it. -/
structure Denotes (n : Nat) (text : List Char) (ls : List Lexeme) (e : Expr) (v : Value) :
    Prop where
  /-- The lexer finds these lexemes. -/
  spelling : Spelling text ls
  /-- They do not start like an arrow function. -/
  starts : noArrow ls = true
  /-- The parser reads them as this expression. -/
  takes : ∀ source, Takes (parseAt n source .expression) 0 ls e
  /-- The expression makes the value. -/
  makes : Makes n e v

/-- What does not start like an arrow function starts with something that can start an
expression. -/
theorem exists_cons_of_noArrow (h : noArrow ls = true) :
    ∃ l more, ls = l :: more ∧ ∀ s : Symbol, s.opens = false → l ≠ .symbol s := by
  cases ls with
  | nil => cases h
  | cons l more =>
    refine ⟨l, more, rfl, ?_⟩
    rintro s hs rfl
    cases s with
    | parenOpen => cases hs
    | _ => exact Bool.false_ne_true (hs.symm.trans h)

/-- What the parser for a single operand reads is an expression of its own. -/
theorem takes_primary {l : Lexeme} {e : Expr} (harrow : noArrow (l :: ls) = true)
    (hl : unary? l = none) (h : ∀ ts rest, Spells ts (l :: ls) →
      primary source (parseAt n source .expression) (whole (parseAt n)) (ts ++ rest) =
        .ok (e, rest)) : Takes (parseAt (n + 1) source .expression) 0 (l :: ls) e :=
  takes_expression harrow ((readsAt_primary hl h).mono (by decide) (by decide) (by decide))

theorem denotes_literal {text : List Char} {lit : Literal}
    (hlit : (Expr.literal lit).isPrintable = true)
    (htext : Spelling text (Expr.literal lit).lexemes) :
    Denotes (n + 1) text (Expr.literal lit).lexemes (.literal lit) (.ofLiteral lit) where
  spelling := htext
  starts := by
    rcases (opening _ hlit).arrow with harrow | ⟨params, body, heq⟩
    · exact harrow
    · cases heq
  takes source := (readable_literal hlit).expression source n (Nat.zero_le n)
  makes scopes env label := ⟨.ofLiteral lit, rfl, rfl⟩

/-! A list makes a list of what its items make. -/

section

variable {n : Nat} {items : List Value} {text : Value → String} {spell : Value → List Lexeme}
  {mean : Value → Expr}

theorem evalElements_makes (h : ∀ v ∈ items, Makes n (mean v) v) (scopes : List Bindings)
    (env : Env) (label : Label) (i : Nat) : ∃ ws,
      evalElements (run scopes n) env label i (items.map fun v => .single (mean v)) = .ok ws ∧
        ws.map Value.unlabelled = items.map Value.unlabelled := by
  induction items generalizing i with
  | nil => exact ⟨[], rfl, rfl⟩
  | cons v items ih =>
    rw [List.forall_mem_cons] at h
    obtain ⟨w, hw, hsame⟩ := h.1 scopes env (i :: label)
    obtain ⟨ws, hws, hall⟩ := ih h.2 (i + 1)
    refine ⟨w :: ws, ?_, by rw [List.map_cons, List.map_cons, hsame, hall]⟩
    rw [List.map_cons, evalElements, hw]
    show (evalElements (run scopes n) env label (i + 1) _ >>= fun ws => .ok (w :: ws)) = _
    rw [hws]
    rfl

theorem denotes_array (hstyle : style.IsStandard) (level : Nat) (label : Label)
    (h : ∀ v ∈ items, Denotes n (text v).toList (spell v) (mean v) v) :
    Denotes (n + 1) (Json.writeItems style level "[" "]" (items.map text)).toList
      (enclosed .squareOpen .squareClose (commas (items.map spell)))
      (.array (items.map fun v => .single (mean v))) (.array label items) where
  spelling := spelling_writeItems hstyle level marks_squareOpen marks_squareClose fun v hv =>
    (h v hv).spelling
  starts := rfl
  takes source := by
    refine takes_primary rfl rfl fun ts rest hts => ?_
    obtain ⟨o, us, rfl, hus⟩ := hts.cons_inv
    have helements : elements source (parseAt n source .expression) .squareClose (us ++ rest) =
        .ok (items.map fun v => .single (mean v), rest) := by
      refine separated_spells_map rfl (by decide) (fun v hv => ?_) ?_ hus
      · obtain ⟨l, more, hls, hl⟩ := exists_cons_of_noArrow (h v hv).starts
        have htakes := (h v hv).takes source
        rw [hls] at htakes ⊢
        exact ⟨single_takes htakes (hl .dots rfl), l, more, rfl, hl .squareClose rfl⟩
      · rw [List.length_append]
        omega
    show (elements source (parseAt n source .expression) .squareClose (us ++ rest)).map _ = _
    rw [helements]
    rfl
  makes scopes env made := by
    obtain ⟨ws, hws, hall⟩ :=
      evalElements_makes (fun v hv => (h v hv).makes) scopes env (0 :: made) 0
    refine ⟨.array made ws, ?_, by rw [Value.unlabelled_array, Value.unlabelled_array, hall]⟩
    show (evalElements (run scopes n) env (0 :: made) 0 _).map (Value.array made) = _
    rw [hws]
    rfl

end

/-! An object makes an object of what its values make, under the same keys. -/

section

variable {n : Nat} {members : Bindings} {text : String × Value → String}
  {spell : String × Value → List Lexeme} {mean : String × Value → Expr}

theorem evalEntries_makes (h : ∀ m ∈ members, Makes n (mean m) m.2) (scopes : List Bindings)
    (env : Env) (label : Label) (i : Nat) {done : Bindings}
    (hkeys : ((done ++ members).map Prod.fst).Nodup) : ∃ ws : Bindings,
      evalEntries (run scopes n) env label i (Entries.ofBindings done)
          (members.map fun m => .pair (.literal (.string m.1)) (mean m)) =
        .ok (Entries.ofBindings (done ++ ws)) ∧
      ws.map (Prod.map id Value.unlabelled) = members.map (Prod.map id Value.unlabelled) := by
  induction members generalizing i done with
  | nil => exact ⟨[], by rw [List.append_nil]; rfl, rfl⟩
  | cons m members ih =>
    rw [List.forall_mem_cons] at h
    obtain ⟨w, hw, hsame⟩ := h.1 scopes env (i :: 0 :: label)
    -- some level is left for the value, so there is one for the key
    obtain ⟨n, rfl⟩ : ∃ k, n = k + 1 := by
      cases n with
      | zero => cases hw
      | succ k => exact ⟨k, rfl⟩
    have hmore : ((done ++ [(m.1, w)] ++ members).map Prod.fst).Nodup := by
      simpa using hkeys
    obtain ⟨ws, hws, hall⟩ := ih h.2 (i + 1) hmore
    refine ⟨(m.1, w) :: ws, ?_, ?_⟩
    · rw [List.map_cons, evalEntries, hw]
      show evalEntries (run scopes (n + 1)) env label (i + 1)
        (Entries.set (.string m.1) w (Entries.ofBindings done)) _ = _
      rw [Entries.set_ofBindings (key_not_mem_of_nodup hkeys), hws, List.append_assoc,
        List.singleton_append]
    · rw [List.map_cons, List.map_cons, hall, Prod.map, Prod.map, hsame]

/-- A key with a value behind a colon. -/
theorem spelling_entry {keyMark : List Char} (hmark : keyMark = ':' :: gap) (hgap : Json.Blank gap)
    (key : String) {value : List Char} (h : Spelling value ls) :
    Spelling ((Json.writeString false key).toList ++ keyMark ++ value)
      (.string key :: .symbol .colon :: ls) := by
  intro s ms hs hlexes
  have hvalue := ((h s ms hs hlexes).blank hgap).mark marks_colon
  have hall := spelling_string key _ _ (marks_colon.ends _) hvalue
  rw [hmark]
  simpa using hall

theorem denotes_object (hstyle : style.IsStandard) (level : Nat) (label : Label)
    (hkeys : (members.map Prod.fst).Nodup) (hascii : style.asciiOnly = false)
    (h : ∀ m ∈ members, Denotes n (text m).toList (spell m) (mean m) m.2) :
    Denotes (n + 1) (Json.writeItems style level "\x7b" "\x7d" (members.map fun m =>
        Json.writeString style.asciiOnly m.1 ++ style.keyMark ++ text m)).toList
      (enclosed .curlyOpen .curlyClose (commas (members.map fun m =>
        .string m.1 :: .symbol .colon :: spell m)))
      (.object (members.map fun m => .pair (.literal (.string m.1)) (mean m)))
      (.object label (Entries.ofBindings members)) where
  spelling := by
    refine spelling_writeItems hstyle level marks_curlyOpen marks_curlyClose fun m hm => ?_
    obtain ⟨gap, hgap, hmark⟩ := hstyle.keyMark
    rw [hascii, String.toList_append, String.toList_append]
    exact spelling_entry hmark hgap m.1 (h m hm).spelling
  starts := rfl
  takes source := by
    refine takes_primary rfl rfl fun ts rest hts => ?_
    obtain ⟨o, us, rfl, hus⟩ := hts.cons_inv
    have hentries : entries source (parseAt n source .expression) (us ++ rest) =
        .ok (members.map fun m => .pair (.literal (.string m.1)) (mean m), rest) := by
      refine separated_spells_map rfl (by decide) (fun m hm => ⟨?_, _, _, rfl, by simp⟩) ?_ hus
      · intro ts rest hts hstop
        obtain ⟨o, us, rfl, hus⟩ := hts.cons_inv
        exact valueOf_takes ((h m hm).takes source) us rest hus hstop
      · rw [List.length_append]
        omega
    show (entries source (parseAt n source .expression) (us ++ rest)).map _ = _
    rw [hentries]
    rfl
  makes scopes env made := by
    obtain ⟨ws, hws, hall⟩ := evalEntries_makes (fun m hm => (h m hm).makes) scopes env made 0
      (hkeys : (([] ++ members).map Prod.fst).Nodup)
    refine ⟨.object made (Entries.ofBindings ws), ?_, ?_⟩
    · show (evalEntries (run scopes n) env made 0 (Entries.ofBindings []) _).map
        (Value.object made) = _
      rw [hws]
      rfl
    · rw [Value.unlabelled_object, Value.unlabelled_object, hall]

end

theorem evaluate_of_run {e : Expr} (h : parse source = .ok e) (names : Bindings)
    (label : Label) : evaluate names label source =
      (run [names] maxDepth (.evaluate ⟨[], 0⟩ label e)).mapError (report source) := by
  rw [evaluate, evaluateIn, h]

end Expr

/-! ## Plain values as JSON -/

namespace Json

/-- A style in which texts and entries are written as they come. -/
structure Style.IsVerbatim (style : Style) : Prop extends style.IsStandard where
  asciiOnly : style.asciiOnly = false
  sortKeys : style.sortKeys = false

theorem isVerbatim_compact : Style.compact.IsVerbatim where
  itemMark := ⟨[], List.forall_mem_nil _, rfl⟩
  keyMark := ⟨[], List.forall_mem_nil _, rfl⟩
  indent unit hunit := absurd hunit (Option.not_mem_none unit)
  asciiOnly := rfl
  sortKeys := rfl

theorem blank_space : Blank " ".toList := by
  simp [Blank, isSpace]

theorem isVerbatim_indented (n : Int) : (Style.indented (times n " ")).IsVerbatim where
  itemMark := ⟨[], List.forall_mem_nil _, (by decide : ",".toList = [','])⟩
  keyMark := ⟨[' '], blank_space, (by decide : ": ".toList = [':', ' '])⟩
  indent unit hunit := by
    obtain rfl : times n " " = unit := Option.mem_some_iff.1 hunit
    exact blank_times blank_space n
  asciiOnly := rfl
  sortKeys := rfl

end Json

namespace Value

open Atoll.Expr

variable {indent : Option Int} {n : Nat} {v : Value}

section

variable {n : Nat} {v : Value} {style : Json.Style}

/-- **The JSON of a plain value is an expression for it**, by induction on the value. -/
theorem Plain.denotes (h : v.Plain n) (hstyle : style.IsVerbatim) (level : Nat) :
    ∃ ls e, Denotes n (Json.writeAt style level v.toDatum).toList ls e v := by
  induction h generalizing level with
  | null n => exact ⟨_, _, denotes_literal (rfl : (Expr.literal .null).isPrintable = true)
      (spelling_word (by decide : isName "null" = true))⟩
  | bool n b =>
    cases b with
    | false =>
      exact ⟨_, _, denotes_literal (rfl : (Expr.literal (.bool false)).isPrintable = true)
        (spelling_word (by decide : isName "false" = true))⟩
    | true =>
      exact ⟨_, _, denotes_literal (rfl : (Expr.literal (.bool true)).isPrintable = true)
        (spelling_word (by decide : isName "true" = true))⟩
  | string n s =>
    refine ⟨_, _, denotes_literal (rfl : (Expr.literal (.string s)).isPrintable = true) ?_⟩
    rw [toDatum, Json.writeAt, hstyle.asciiOnly]
    exact spelling_string s
  | @array n items label hitems ih =>
    -- the lexemes and the expression of each item make up those of the list
    choose! spell mean hdenotes using fun v hv => ih v hv (level + 1)
    rw [toDatum, toData_eq_map, Json.writeAt, Json.writeAll_eq_map, List.map_map]
    exact ⟨_, _, denotes_array hstyle.toIsStandard level label hdenotes⟩
  | @object n members label hkeys hmembers ih =>
    choose! spell mean hdenotes using fun m hm => ih m hm (level + 1)
    rw [toDatum_object hkeys hmembers, Json.writeAt, hstyle.sortKeys, Json.writeEntries_eq_map,
      if_neg Bool.false_ne_true, List.map_map, List.map_map]
    exact ⟨_, _, denotes_object hstyle.toIsStandard level label hkeys hstyle.asciiOnly hdenotes⟩

/-- Evaluated, the JSON of a plain value makes that value, whatever names are bound. -/
theorem Plain.evaluate_write (h : v.Plain Expr.maxDepth) (hstyle : style.IsVerbatim)
    (names : Bindings) (label : Label) : ∃ w,
      evaluate names label (Json.write style v.toDatum) = .ok w ∧ w.unlabelled = v.unlabelled := by
  obtain ⟨ls, e, hdenotes⟩ := h.denotes hstyle 0
  obtain ⟨l, more, hls, -⟩ := exists_cons_of_noArrow hdenotes.starts
  obtain ⟨ts, hlex, hts⟩ := hdenotes.spelling [] [] (by simp [EndsName]) .nil
    (Json.write style v.toDatum) 0
  rw [List.append_nil] at hlex hts
  have hparse : parse (Json.write style v.toDatum) = .ok e :=
    whole_spells hlex hts (by simp [hls]) (hdenotes.takes _)
  obtain ⟨w, hw, hsame⟩ := hdenotes.makes [names] ⟨[], 0⟩ label
  refine ⟨w, ?_, hsame⟩
  rw [evaluate_of_run hparse, hw]
  rfl

/-- Read as JSON, it makes the value too. -/
theorem Plain.parseJson_write (h : v.Plain Json.maxDepth) (hstyle : style.IsVerbatim)
    (label : Label) : ∃ w, parseJson label (.string (Json.write style v.toDatum)) = .ok w ∧
      w.unlabelled = v.unlabelled := by
  have hread := Json.read_write hstyle.toIsStandard hstyle.sortKeys h.storable h.depth_le
  refine ⟨ofDatum label v.toDatum, ?_, h.unlabelled_ofDatum label⟩
  simp only [parseJson, toText, bind, Except.bind, hread]

end

/-! ## Indents -/

/-- The argument for an indent; it is undefined where there is none. -/
def indentArgument (indent : Option Int) : Value :=
  indent.elim .undefined .ofInt

/-- Whether a value can be written with an indent: its width has to be a count, but a text is
written without it. -/
def Indentable (v : Value) (indent : Option Int) : Prop :=
  v.isString = true ∨ ∀ n ∈ indent, -2 ^ 63 ≤ n ∧ n < 2 ^ 63

/-- What is written for a plain value: one line, or lines with an indent. -/
theorem Plain.stringify_eq (h : v.Plain n) (indent : Option Int) :
    v.stringify (indentArgument indent) =
      indent.elim (.ok (.string (Json.write .compact v.toDatum))) fun width =>
        (if v.isString then .ok "" else liftNumber (Json.indentUnit width)).map fun unit =>
          .string (Json.write (.indented unit) v.toDatum) := by
  have hdefined : (v.category == .undefined) = false := by cases h <;> rfl
  rw [stringify, hdefined, if_neg Bool.false_ne_true, h.exported]
  cases indent with
  | none => rfl
  | some width =>
    show (if v.isString = true then _ else liftNumber (Json.indentUnit width) >>= _) = _
    rw [Option.elim_some]
    by_cases htext : v.isString = true
    · rw [if_pos htext, if_pos htext]
      rfl
    · rw [if_neg htext, if_neg htext]
      cases Json.indentUnit width <;> rfl

theorem Plain.stringify_ok (h : v.Plain n)
    (hindent : v.Indentable indent) : ∃ style : Json.Style, style.IsVerbatim ∧
      v.stringify (indentArgument indent) = .ok (.string (Json.write style v.toDatum)) := by
  rw [h.stringify_eq]
  cases indent with
  | none => exact ⟨.compact, Json.isVerbatim_compact, rfl⟩
  | some width =>
    rw [Option.elim_some]
    by_cases htext : v.isString = true
    · -- a text has no lines to indent, and no spaces are made for it
      rw [if_pos htext]
      exact ⟨.indented (times 0 " "), Json.isVerbatim_indented 0, rfl⟩
    · have hwidth := (hindent.resolve_left htext) width rfl
      rw [if_neg htext, Json.indentUnit_eq, if_neg (by omega)]
      exact ⟨.indented (times width " "), Json.isVerbatim_indented width, rfl⟩

theorem Plain.stringify_error (h : v.Plain n) (hindent : ¬v.Indentable indent) :
    ∃ fault, v.stringify (indentArgument indent) = .error fault := by
  rw [Indentable, not_or] at hindent
  obtain ⟨htext, hwide⟩ := hindent
  cases indent with
  | none => exact absurd (fun n hn => absurd hn (Option.not_mem_none n)) hwide
  | some width =>
    have hwidth : ¬(-2 ^ 63 ≤ width ∧ width < 2 ^ 63) := fun hfits =>
      hwide fun n hn => Option.mem_some_iff.1 hn ▸ hfits
    rw [h.stringify_eq, Option.elim_some, if_neg htext, Json.indentUnit_eq, if_pos (by omega)]
    exact ⟨_, rfl⟩

end Value

/-! ## Calls -/

namespace Expr

/-- A value and an indent under the names that the calls use. -/
def jsonNames (v : Value) (indent : Option Int) : Bindings :=
  ("value", v) :: indent.toList.map fun n => ("indent", .ofInt n)

/-- The call that writes a value as JSON. -/
def stringifyCall (indent : Option Int) : String :=
  if indent.isSome then "JSON.stringify(value, null, indent)" else "JSON.stringify(value, null)"

/-- The call that writes a value and reads it again. -/
def parseCall (indent : Option Int) : String :=
  "JSON.parse(" ++ stringifyCall indent ++ ")"

/-- A call of a function for JSON. -/
def jsonCall (function : String) (args : List Expr) : Expr :=
  .call (.member (.name "JSON") (.literal (.string function)) false) (args.map .single)

/-- What the first call spells. -/
def stringifyExpr (indent : Option Int) : Expr :=
  jsonCall "stringify"
    ([.name "value", .literal .null] ++ indent.toList.map fun _ => .name "indent")

set_option maxRecDepth 8192 in
theorem parse_stringifyCall (indent : Option Int) :
    parse (stringifyCall indent) = .ok (stringifyExpr indent) := by
  cases indent with
  | none => cbv
  | some n => cbv

set_option maxRecDepth 8192 in
theorem parse_parseCall (indent : Option Int) :
    parse (parseCall indent) = .ok (jsonCall "parse" [stringifyExpr indent]) := by
  cases indent with
  | none => cbv
  | some n => cbv

section

variable (v : Value) (indent : Option Int) (depth : Nat) (label : Label)

theorem run_stringifyExpr :
    run [jsonNames v indent] (depth + 2) (.evaluate ⟨[], 0⟩ label (stringifyExpr indent)) =
      guardCall (fun _ => v.stringify (Value.indentArgument indent)) label .null [] := by
  cases indent with
  | none => rfl
  | some n => rfl

theorem run_parseExpr :
    run [jsonNames v indent] (depth + 3)
        (.evaluate ⟨[], 0⟩ label (jsonCall "parse" [stringifyExpr indent])) =
      run [jsonNames v indent] (depth + 2)
          (.evaluate ⟨[], 0⟩ (0 :: 1 :: label) (stringifyExpr indent)) >>= fun text =>
        guardCall (fun _ => Value.parseJson (2 :: label) text) label .null [] := by
  have hcall : run [jsonNames v indent] (depth + 3)
      (.evaluate ⟨[], 0⟩ label (jsonCall "parse" [stringifyExpr indent])) =
        evalCall (run [jsonNames v indent] (depth + 2)) ⟨[], 0⟩ label (.builtin .parse)
          [.single (stringifyExpr indent)] := by
    cases indent with
    | none => rfl
    | some n => rfl
  rw [hcall, evalCall, evalElements]
  cases run [jsonNames v indent] (depth + 2) (.evaluate ⟨[], 0⟩ (0 :: 1 :: label)
    (stringifyExpr indent)) <;> rfl

end

section

variable {v : Value} {indent : Option Int}

theorem evaluate_stringifyCall {w : Value}
    (h : v.stringify (Value.indentArgument indent) = .ok w) (label : Label) :
    evaluate (jsonNames v indent) label (stringifyCall indent) = .ok w := by
  have hrun : run [jsonNames v indent] maxDepth
      (.evaluate ⟨[], 0⟩ label (stringifyExpr indent)) = .ok w := by
    rw [show maxDepth = 998 + 2 from rfl, run_stringifyExpr, guardCall, h]
  rw [evaluate_of_run (parse_stringifyCall indent), hrun]
  rfl

theorem evaluate_parseCall {text w : Value} (label : Label)
    (h : v.stringify (Value.indentArgument indent) = .ok text)
    (hparse : Value.parseJson (2 :: label) text = .ok w) :
    evaluate (jsonNames v indent) label (parseCall indent) = .ok w := by
  have hrun : run [jsonNames v indent] maxDepth
      (.evaluate ⟨[], 0⟩ label (jsonCall "parse" [stringifyExpr indent])) = .ok w := by
    rw [show maxDepth = 997 + 3 from rfl, run_parseExpr, run_stringifyExpr, guardCall, h]
    show guardCall (fun _ => Value.parseJson (2 :: label) text) label .null [] = _
    rw [guardCall, hparse]
  rw [evaluate_of_run (parse_parseCall indent), hrun]
  rfl

/-- If a value cannot be written, both calls fail. -/
theorem evaluate_calls_error {fault : Fault}
    (h : v.stringify (Value.indentArgument indent) = .error fault) (label : Label) :
    (∃ fault, evaluate (jsonNames v indent) label (stringifyCall indent) = .error fault) ∧
      ∃ fault, evaluate (jsonNames v indent) label (parseCall indent) = .error fault := by
  have hcall : ∀ label, ∃ fault, guardCall (fun _ => v.stringify (Value.indentArgument indent))
      label .null [] = .error fault := by
    intro label
    rw [guardCall, h]
    cases fault <;> exact ⟨_, rfl⟩
  constructor
  · obtain ⟨fault, hfault⟩ := hcall label
    rw [evaluate_of_run (parse_stringifyCall indent), show maxDepth = 998 + 2 from rfl,
      run_stringifyExpr, hfault]
    exact ⟨_, rfl⟩
  · obtain ⟨fault, hfault⟩ := hcall (0 :: 1 :: label)
    rw [evaluate_of_run (parse_parseCall indent), show maxDepth = 997 + 3 from rfl,
      run_parseExpr, run_stringifyExpr, hfault]
    exact ⟨_, rfl⟩

end

/-- **JSON is a language of expressions.**  A plain value is written as JSON whether it is on one
line or indented, unless the width of the indent is no count.  Read as JSON or evaluated as an
expression, the text makes a value that differs from it in nothing but the identity of its lists and
objects. -/
theorem evaluate_stringified (v : Value) (hv : v.Plain maxDepth) (indent : Option Int)
    (label : Label) :
    (v.Indentable indent → ∃ text,
      evaluate (jsonNames v indent) label (stringifyCall indent) = .ok (.string text) ∧
      (∃ w, evaluate (jsonNames v indent) label (parseCall indent) = .ok w ∧
        w.unlabelled = v.unlabelled) ∧
      ∀ names label, ∃ w, evaluate names label text = .ok w ∧ w.unlabelled = v.unlabelled) ∧
    (¬v.Indentable indent →
      (∃ fault, evaluate (jsonNames v indent) label (stringifyCall indent) = .error fault) ∧
      ∃ fault, evaluate (jsonNames v indent) label (parseCall indent) = .error fault) := by
  constructor
  · intro hindent
    obtain ⟨style, hstyle, hstringify⟩ := hv.stringify_ok hindent
    obtain ⟨w, hw, hsame⟩ := hv.parseJson_write hstyle (2 :: label)
    exact ⟨Json.write style v.toDatum, evaluate_stringifyCall hstringify label,
      ⟨w, evaluate_parseCall label hstringify hw, hsame⟩, hv.evaluate_write hstyle⟩
  · intro hindent
    obtain ⟨fault, hfault⟩ := hv.stringify_error hindent
    exact evaluate_calls_error hfault label

/-- A value with all kinds of parts: lists and objects in one another, empty ones, and texts with
quotes, backslashes, control characters and more. -/
def manifold : Value :=
  .object [] (Entries.ofBindings
    [("list", .array [0] [.null, .bool true, .string "a \"b\" \\ \n\x01 é 🌴", .array [1] []]),
      ("__proto__", .object [2] (Entries.ofBindings [])), ("", .bool false)])

theorem evaluate_stringified_manifold :
    manifold.Plain maxDepth ∧ manifold.Indentable (some 2) ∧ ∃ text,
      evaluate (jsonNames manifold (some 2)) [] (stringifyCall (some 2)) = .ok (.string text) ∧
      (∃ w, evaluate (jsonNames manifold (some 2)) [] (parseCall (some 2)) = .ok w ∧
        w.unlabelled = manifold.unlabelled) ∧
      ∀ names label, ∃ w, evaluate names label text = .ok w ∧
        w.unlabelled = manifold.unlabelled := by
  have hlist : (Value.array [0] [.null, .bool true, .string "a \"b\" \\ \n\x01 é 🌴",
      .array [1] []]).Plain 999 := by
    refine .array _ ?_
    simp only [List.forall_mem_cons]
    exact ⟨.null _, .bool _ _, .string _ _, .array _ (List.forall_mem_nil _), List.forall_mem_nil _⟩
  have hplain : manifold.Plain maxDepth := by
    refine .object _ (by decide) ?_
    simp only [List.forall_mem_cons]
    exact ⟨hlist, .object _ .nil (List.forall_mem_nil _), .bool _ _, List.forall_mem_nil _⟩
  have hindent : manifold.Indentable (some 2) := .inr (by simp)
  exact ⟨hplain, hindent, (evaluate_stringified manifold hplain (some 2) []).1 hindent⟩

/-- So many spaces cannot be counted, and not even null can be written with this indent. -/
theorem evaluate_parseCall_vastIndent :
    evaluate (jsonNames .null (some (2 ^ 63))) [] (parseCall (some (2 ^ 63))) =
      .error (.about (parseCall (some (2 ^ 63))) (.callFailed (some .largeCount))) := by
  have hstringify : Value.null.stringify (Value.indentArgument (some (2 ^ 63))) =
      .error (.trouble .largeCount) := by
    rw [(Value.Plain.null 0).stringify_eq, Option.elim_some,
      if_neg (by decide : ¬Value.null.isString = true), Json.indentUnit_eq, if_pos (by decide)]
    rfl
  rw [evaluate_of_run (parse_parseCall _), show maxDepth = 997 + 3 from rfl, run_parseExpr,
    run_stringifyExpr, guardCall, hstringify]
  rfl

end Expr

end Atoll
