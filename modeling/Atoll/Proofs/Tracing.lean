import Atoll.Proofs.Acceptance
import Atoll.Proofs.Conservation
import Atoll.Proofs.Declaring
import Atoll.Proofs.Layout
import Atoll.Proofs.Origin

/-!
# Finding the statements of a script again

A module says where each of its statements comes from.  These places are found after the fact: the
first line of each statement is looked up in the document, behind the line found before.  The search
does not know about comments, so it may stop too early; here is when it does not.

* `findFrom?_eq_some`, `findFrom?_eq_none` — what the search answers.
* `Traced` — each first line is found where its statement was taken, or nowhere.
  `Traced.lookup_locateFrom`: then a statement that differs from all before it gets its own place.
* `traced_of_cut`, `locate_uncommented` — **in a script without comments whose statements are lines,
  every statement is found where it was taken.**
* `scriptStart`, `findFrom?_script` — where the script of a document starts.
* `locate_traced` — hence a statement gets the place where it was taken.
-/

set_option autoImplicit false

namespace Atoll

/-! ## Searching -/

namespace Text

variable {s needle : List Char}

theorem find?_eq_some {i : Nat} (hi : needle <+: s.drop i)
    (hno : ∀ p < i, ¬needle <+: s.drop p) : find? needle s = some i := by
  obtain ⟨p, hle, hp⟩ := Markup.exists_find?_le hi
  rcases Nat.lt_or_eq_of_le hle with hlt | rfl
  · exact absurd (Markup.find?_spec hp).2 (hno p hlt)
  · exact hp

theorem find?_eq_none (hno : ∀ p, ¬needle <+: s.drop p) : find? needle s = none :=
  Option.eq_none_iff_forall_not_mem.2 fun p hp => hno p (Markup.find?_spec hp).2

/-- A text does not start where another character stands. -/
theorem not_prefix_of_head? {p : Nat} {c d : Char} (hc : s[p]? = some c)
    (hd : needle.head? = some d) (hne : c ≠ d) : ¬needle <+: s.drop p := by
  intro h
  obtain ⟨more, rfl⟩ := List.head?_eq_some_iff.1 hd
  obtain ⟨rest, hrest⟩ := h
  have hget : (s.drop p)[0]? = some d := by rw [← hrest]; rfl
  rw [List.getElem?_drop, Nat.add_zero, hc, Option.some_inj] at hget
  exact hne hget

/-- A text without blanks around it does not start with one. -/
theorem head?_trim (h : trim s ≠ []) : ∃ c ∈ (trim s).head?, isBlank c = false := by
  obtain ⟨c, cs, hc⟩ := List.exists_cons_of_ne_nil h
  obtain ⟨w, -, hs⟩ := exists_trimEnd_append (trimStart s)
  rw [← trim, hc] at hs
  have hnot := List.head?_dropWhile_not isBlank s
  rw [← trimStart, hs] at hnot
  exact ⟨c, by rw [hc]; rfl, by simpa using hnot⟩

theorem lines_of_oneLine {text : String} (h : OneLine text) :
    lines text.toList = [text.toList] := by
  have hpieces : ∀ s ∈ [text.toList], ∀ c ∈ s, (c == '\n') = false := by
    simpa [OneLine] using h
  have hcut : cutWhere (· == '\n') (['\n'].intercalate [text.toList]) = [text.toList] :=
    cutWhere_intercalate rfl hpieces
  rwa [List.intercalate_singleton] at hcut

end Text

namespace Synthesis

open Text
open Script (Kept Cut placedStatements keptFrom isGap)

variable {needle s : List Char} {cursor : Nat} {st : List Kept}

theorem findFrom?_eq_some {offset i : Nat} (hne : needle ≠ []) (hle : offset ≤ i)
    (hi : needle <+: s.drop i) (hno : ∀ p, offset ≤ p → p < i → ¬needle <+: s.drop p) :
    findFrom? needle s offset = some i := by
  have hlt : i < s.length := by
    by_contra hge
    rw [List.drop_eq_nil_of_le (Nat.le_of_not_lt hge), List.prefix_nil] at hi
    exact hne hi
  have hfind : find? needle (s.drop offset) = some (i - offset) := by
    refine find?_eq_some ?_ fun p hp => ?_
    · rwa [List.drop_drop, Nat.add_sub_cancel' hle]
    · rw [List.drop_drop]
      exact hno (offset + p) (by omega) (by omega)
  rw [findFrom?, if_neg (by omega), hfind, Option.map_some, Nat.sub_add_cancel hle]

theorem findFrom?_eq_none {offset : Nat}
    (hno : ∀ p, offset ≤ p → ¬needle <+: s.drop p) : findFrom? needle s offset = none := by
  rw [findFrom?]
  split
  · rfl
  · rw [find?_eq_none fun p => by rw [List.drop_drop]; exact hno _ (Nat.le_add_right _ _)]
    rfl

/-! ## Statements that are found -/

/-- The search goes right for statements that were taken from a text: the first line of each is
found where it was taken, because it stands there in one piece and nowhere between the line found
before and that place, or it is found nowhere. -/
inductive Traced (s : List Char) : Nat → List (List Kept) → Prop where
  | nil {cursor : Nat} : Traced s cursor []
  | found {cursor : Nat} {statement : List Kept} {rest : List (List Kept)}
      (hwhole : Kept.Whole (Kept.firstLine statement))
      (hno : ∀ p, cursor ≤ p → p < Kept.origin statement →
        ¬Kept.chars (Kept.firstLine statement) <+: s.drop p)
      (hrest : Traced s (Kept.origin statement + (Kept.firstLine statement).length) rest) :
      Traced s cursor (statement :: rest)
  | missing {cursor : Nat} {statement : List Kept} {rest : List (List Kept)}
      (hno : ∀ p, cursor ≤ p → ¬Kept.chars (Kept.firstLine statement) <+: s.drop p)
      (hrest : Traced s cursor rest) : Traced s cursor (statement :: rest)

theorem Traced.left {sts more : List (List Kept)}
    (h : Traced s cursor (sts ++ more)) : Traced s cursor sts := by
  induction sts generalizing cursor with
  | nil => exact .nil
  | cons st sts ih =>
    cases h with
    | found hwhole hno hrest => exact .found hwhole hno (ih hrest)
    | missing hno hrest => exact .missing hno (ih hrest)

/-- Statements were taken from a text behind an offset, one behind the other. -/
structure TakenFrom (s : List Char) (cursor : Nat) (sts : List (List Kept)) : Prop where
  starts : ∀ st ∈ sts, Kept.Starts st
  reads : ∀ k ∈ sts.flatten, s[k.offset]? = some k.char
  behind : ∀ k ∈ sts.flatten, cursor ≤ k.offset
  sorted : sts.flatten.Pairwise fun a b => a.offset < b.offset

theorem chars_firstLine (st : List Kept) :
    Kept.chars (Kept.firstLine st) = (Kept.text st).toList.takeWhile (· != '\n') := by
  rw [Kept.text, String.toList_ofList, Kept.chars, Kept.chars, List.takeWhile_map]
  rfl

/-- The first line of a statement starts with the statement. -/
theorem exists_firstLine (h : Kept.Starts st) :
    ∃ k rest, Kept.firstLine st = k :: rest ∧ isGap k.char = false ∧
      Kept.origin st = k.offset := by
  obtain ⟨k, hk, hgap⟩ := h
  obtain ⟨ks, rfl⟩ := List.head?_eq_some_iff.1 hk
  have hline : (k.char != '\n') = true := by
    rw [bne_iff_ne]
    rintro hnewline
    rw [hnewline] at hgap
    exact absurd hgap (by decide)
  exact ⟨k, _, List.takeWhile_cons_of_pos hline, hgap, rfl⟩

theorem origin_firstLine (h : Kept.Starts st) :
    Kept.origin (Kept.firstLine st) = Kept.origin st := by
  obtain ⟨k, rest, hline, -, horigin⟩ := exists_firstLine h
  rw [hline, horigin, Kept.origin_cons]

namespace TakenFrom

variable {s : List Char} {cursor : Nat} {st : List Kept} {sts : List (List Kept)}
  (h : TakenFrom s cursor (st :: sts))
include h

theorem tail : TakenFrom s cursor sts where
  starts := (List.forall_mem_cons.1 h.starts).2
  reads k hk := h.reads k (List.mem_append_right st hk)
  behind k hk := h.behind k (List.mem_append_right st hk)
  sorted := (List.pairwise_append.1 h.sorted).2.1

theorem ne_nil : Kept.chars (Kept.firstLine st) ≠ [] := by
  obtain ⟨k, rest, hline, -, -⟩ := exists_firstLine (h.starts st List.mem_cons_self)
  simp [hline, Kept.chars]

/-- The first line of a statement stands where the statement was taken, if it is in one piece. -/
theorem stands (hwhole : Kept.Whole (Kept.firstLine st)) :
    cursor ≤ Kept.origin st ∧ Kept.chars (Kept.firstLine st) <+: s.drop (Kept.origin st) := by
  have hstarts := h.starts st List.mem_cons_self
  have hmem : ∀ k ∈ Kept.firstLine st, k ∈ (st :: sts).flatten := fun k hk =>
    List.mem_append_left _ ((List.takeWhile_sublist _).subset hk)
  obtain ⟨k, rest, hline, -, horigin⟩ := exists_firstLine hstarts
  constructor
  · rw [horigin]
    exact h.behind k (hmem k (by simp [hline]))
  · rw [← origin_firstLine hstarts]
    exact hwhole.stands fun k hk => h.reads k (hmem k hk)

/-- The other statements were taken behind the first line of the first one. -/
theorem advance (hwhole : Kept.Whole (Kept.firstLine st)) :
    TakenFrom s (Kept.origin st + (Kept.firstLine st).length) sts := by
  refine { h.tail with behind := fun k hk => ?_ }
  have hstarts := h.starts st List.mem_cons_self
  have hbefore := (List.pairwise_append.1 h.sorted).2.2
  obtain ⟨j, rest, hline, -, -⟩ := exists_firstLine hstarts
  rw [← origin_firstLine hstarts]
  refine hwhole.origin_add_length (by simp [hline]) fun j hj => ?_
  exact hbefore j ((List.takeWhile_sublist _).subset hj) k hk

end TakenFrom

theorem locateFrom_found {i : Nat}
    (h : findFrom? (Kept.chars (Kept.firstLine st)) s cursor = some i) (rest : List String) :
    locateFrom s cursor (Kept.text st :: rest) =
      (Kept.text st, Position.ofOffset s i) ::
        locateFrom s (i + (Kept.firstLine st).length) rest := by
  have hlength : (Kept.chars (Kept.firstLine st)).length = (Kept.firstLine st).length :=
    List.length_map _
  rw [locateFrom, ← chars_firstLine, h, ← hlength]

theorem locateFrom_missing (h : findFrom? (Kept.chars (Kept.firstLine st)) s cursor = none)
    (rest : List String) :
    locateFrom s cursor (Kept.text st :: rest) = locateFrom s cursor rest := by
  rw [locateFrom, ← chars_firstLine, h]

/-- **A statement is found where it was taken**, if it differs from all statements before it and the
search has gone right up to it. -/
theorem Traced.lookup_locateFrom {before : List (List Kept)} (h : Traced s cursor (before ++ [st]))
    (htaken : TakenFrom s cursor (before ++ [st])) (hwhole : Kept.Whole (Kept.firstLine st))
    (hnew : ∀ b ∈ before, Kept.text b ≠ Kept.text st) (after : List String) :
    (locateFrom s cursor (before.map Kept.text ++ Kept.text st :: after)).lookup (Kept.text st) =
      some (Position.ofOffset s (Kept.origin st)) := by
  induction before generalizing cursor with
  | nil =>
    obtain ⟨hle, hstands⟩ := htaken.stands hwhole
    cases h with
    | found _ hno _ =>
      have hfind := findFrom?_eq_some htaken.ne_nil hle hstands hno
      rw [List.map_nil, List.nil_append, locateFrom_found hfind, List.lookup_cons_self]
    | missing hno _ => exact absurd hstands (hno _ hle)
  | cons b before ih =>
    obtain ⟨hb, hnew⟩ := List.forall_mem_cons.1 hnew
    rw [List.map_cons, List.cons_append]
    cases h with
    | found hwhole' hno hrest =>
      obtain ⟨hle, hstands⟩ := htaken.stands hwhole'
      have hfind := findFrom?_eq_some htaken.ne_nil hle hstands hno
      have hother : (Kept.text st == Kept.text b) = false := beq_eq_false_iff_ne.2 hb.symm
      rw [locateFrom_found hfind, List.lookup_cons, hother]
      exact ih hrest (htaken.advance hwhole') hnew
    | missing hno hrest =>
      have hfind := findFrom?_eq_none hno
      rw [locateFrom_missing hfind]
      exact ih hrest htaken.tail hnew

/-! ## Scripts without comments -/

/-- Where every statement is a line and nothing was taken out, the search goes right: in front of a
statement there are only characters that no statement starts with. -/
theorem traced_of_cut {ks : List Kept} {sts : List (List Kept)} (h : Cut ks sts)
    (hwhole : Kept.Whole ks) (hreads : ∀ k ∈ ks, s[k.offset]? = some k.char)
    (hcursor : ∀ k ∈ ks.head?, k.offset = cursor) (hline : ∀ st ∈ sts, '\n' ∉ Kept.chars st) :
    Traced s cursor sts ∧ ∀ st ∈ sts, Kept.Whole (Kept.firstLine st) := by
  induction h generalizing cursor with
  | done => exact ⟨.nil, by simp⟩
  | @more gap st rest sts hgap hstarts hcut ih =>
    obtain ⟨hst, hline⟩ := List.forall_mem_cons.1 hline
    have hoffset := hwhole.offset_eq hcursor
    have hall : Kept.firstLine st = st := by
      refine List.takeWhile_eq_self_iff.2 fun k hk => bne_iff_ne.2 fun hnewline => ?_
      exact hst (hnewline ▸ List.mem_map_of_mem hk)
    obtain ⟨k, more, hhead, hk, horigin⟩ := exists_firstLine hstarts
    rw [hall] at hhead
    have horigin : Kept.origin st = cursor + gap.length := by
      rw [horigin]
      exact hoffset gap.length k (by simp [hhead])
    have hwhole' : Kept.Whole (st ++ rest) := List.IsChain.right_of_append hwhole
    have hwholeLine : Kept.Whole (Kept.firstLine st) := by
      rw [hall]
      exact List.IsChain.left_of_append hwhole'
    have hnext : ∀ j ∈ rest.head?, j.offset = Kept.origin st + (Kept.firstLine st).length := by
      intro j hj
      rw [horigin, hall]
      refine (hoffset (gap.length + st.length) j ?_).trans (Nat.add_assoc ..).symm
      rw [List.head?_eq_getElem?] at hj
      rw [← List.append_assoc, List.getElem?_append_right (by simp)]
      simpa using hj
    obtain ⟨htraced, hwholes⟩ := ih (List.IsChain.right_of_append hwhole')
      (fun j hj => hreads j (List.mem_append_right _ (List.mem_append_right _ hj))) hnext hline
    refine ⟨.found hwholeLine (fun p hle hlt => ?_) htraced,
      List.forall_mem_cons.2 ⟨hwholeLine, hwholes⟩⟩
    -- the character at `p` stands in the gap
    have hlt : p - cursor < gap.length := by omega
    have hget : gap[p - cursor]? = some gap[p - cursor] := List.getElem?_eq_getElem hlt
    have hmem : gap[p - cursor] ∈ gap := List.getElem_mem hlt
    have hp : gap[p - cursor].offset = p := by
      rw [hoffset (p - cursor) _ (by rw [List.getElem?_append_left hlt, hget])]
      omega
    have hchar := hreads _ (List.mem_append_left _ hmem)
    have hfirst : (Kept.chars (Kept.firstLine st)).head? = some k.char := by
      rw [hall, hhead]
      rfl
    rw [hp] at hchar
    refine not_prefix_of_head? hchar hfirst fun heq => ?_
    rw [← heq, hgap _ hmem] at hk
    cases hk

/-! ## The script of a document -/

/-- Where the script of a document starts: behind the opening fence and the blanks that follow. -/
def scriptStart (s : List Char) : Nat :=
  3 + ((s.drop 3).takeWhile isBlank).length

end Synthesis

namespace Markup

open Text

theorem content_prefix {s content : List Char} {n : Nat}
    (h : frontmatter? s = some (content, n)) : content <+: s := by
  fun_induction frontmatter? s generalizing content n with
  | case1 => cases h
  | case2 cs m hfence =>
    cases h
    exact ⟨cs, rfl⟩
  | case3 cs hfence ih =>
    obtain ⟨⟨more, m⟩, hmore, heq⟩ := Option.map_eq_some_iff.1 h
    cases heq
    exact List.cons_prefix_cons.2 ⟨rfl, ih hmore⟩
  | case4 c cs _ ih =>
    obtain ⟨⟨more, m⟩, hmore, heq⟩ := Option.map_eq_some_iff.1 h
    cases heq
    exact List.cons_prefix_cons.2 ⟨rfl, ih hmore⟩

/-- The script of a document is its first token. -/
theorem head?_tokenize_of_script {source code : String} {span : Span}
    (h : (parse source).tree.frontmatter? = some (code, span)) :
    ∃ t, (tokenize source).head? = some t ∧ t.kind = .frontmatter ∧ t.value = code := by
  have hchildren : ∃ rest, (parse source).tree.children = .frontmatter code span :: rest := by
    rw [Fragment.frontmatter?] at h
    split at h
    · rename_i code' span' rest hnodes
      cases h
      exact ⟨rest, hnodes⟩
    · cases h
  obtain ⟨rest, hchildren⟩ := hchildren
  obtain ⟨groups, hflat, hgroups⟩ := areReadFrom_parseTokens (tokenize source)
  have hpieces : Node.pieces (parseTokens (tokenize source)).tree.children =
      .script code :: Node.pieces rest := by
    rw [show (parseTokens (tokenize source)).tree.children = _ from hchildren]
    rfl
  rw [hpieces] at hgroups
  obtain ⟨group, more, hgroup, -, rfl⟩ := List.forall₂_cons_left_iff.1 hgroups
  cases hgroup with
  | @script t ht =>
    have hmem : t ∈ ([t] :: more).flatten := List.mem_cons_self
    rw [hflat, List.mem_append] at hmem
    -- a token that says something wherever it stands is no script
    have hscript := hmem.resolve_right fun hcontent => by
      have hcontent := (List.mem_filter.1 hcontent).2
      simp [Token.isContent, ht] at hcontent
    have hhead := Option.mem_toList.1 (List.mem_filter.1 hscript).1
    rw [List.head?_takeWhile] at hhead
    exact ⟨t, (Option.eq_some_of_filter_eq_some hhead), ht, rfl⟩

/-- **The script of a document stands behind its opening fence**, with blanks around it. -/
theorem exists_script {source code : String} {span : Span}
    (h : (parse source).tree.frontmatter? = some (code, span)) :
    ∃ content rest, unifyNewlines source.toList = "---".toList ++ (content ++ rest) ∧
      code.toList = trim content := by
  obtain ⟨t, hhead, hkind, rfl⟩ := head?_tokenize_of_script h
  rw [tokenize, lex] at hhead
  split at hhead
  · rename_i token n hstep
    cases hhead
    rw [frontmatterStep?] at hstep
    split at hstep
    · rename_i cs hafter
      obtain ⟨⟨content, fence⟩, hcontent, heq⟩ := Option.map_eq_some_iff.1 hstep
      obtain ⟨rest, rfl⟩ := content_prefix hcontent
      cases heq
      exact ⟨content, rest, after?_eq_some hafter, String.toList_ofList⟩
    · cases hstep
  · obtain ⟨body, p, hbody, hlexed⟩ := lexFrom_lexed .content
      (Cursor.ofText (unifyNewlines source.toList))
    have hmem := List.mem_of_mem_head? hhead
    rw [hbody, List.mem_append, List.mem_singleton] at hmem
    rcases hmem with hmem | rfl
    · exact absurd hkind (hlexed.kind_mem t hmem).2
    · cases hkind

end Markup

namespace Synthesis

open Text
open Script (Kept Cut placedStatements keptFrom isGap)

variable {after before : List (List Kept)} {start : Nat} {st : List Kept}

/-- **The script is found where it starts.** -/
theorem findFrom?_script {source code : String} {span : Span}
    (h : (Markup.parse source).tree.frontmatter? = some (code, span)) (hne : code ≠ "") :
    let s := unifyNewlines source.toList
    code.toList <+: s.drop (scriptStart s) ∧
      findFrom? code.toList s 3 = some (scriptStart s) := by
  intro s
  obtain ⟨content, rest, hs, hcode⟩ := Markup.exists_script h
  obtain ⟨v, w, hv, -, hcontent⟩ := exists_trim_append content
  have htext : s = "---".toList ++ (v ++ (code.toList ++ (w ++ rest))) := by
    rw [hcode, ← List.append_assoc (trim content), ← List.append_assoc v, ← hcontent]
    exact hs
  have hnil : code.toList ≠ [] := by simpa using hne
  obtain ⟨c, hc, hblank⟩ : ∃ c ∈ code.toList.head?, isBlank c = false := by
    rw [hcode] at hnil ⊢
    exact head?_trim hnil
  have htake : (s.drop 3).takeWhile isBlank = v := by
    obtain ⟨cs, hcs⟩ := List.head?_eq_some_iff.1 hc
    have hbehind : s.drop 3 = v ++ (code.toList ++ (w ++ rest)) := by
      rw [htext]
      rfl
    rw [hbehind, hcs, List.takeWhile_append_of_pos hv, List.cons_append,
      List.takeWhile_cons_of_neg (by simp [hblank]), List.append_nil]
  have hstart : scriptStart s = 3 + v.length := by rw [scriptStart, htake]
  have hdrop : s.drop (3 + v.length) = code.toList ++ (w ++ rest) := by
    rw [htext, ← List.append_assoc]
    exact List.drop_left' (by rw [List.length_append]; rfl)
  have hstands : code.toList <+: s.drop (3 + v.length) := ⟨_, hdrop.symm⟩
  rw [hstart]
  refine ⟨hstands, findFrom?_eq_some hnil (Nat.le_add_right _ _) hstands fun p hle hlt => ?_⟩
  -- the script does not start with a blank
  have hp : p - 3 < v.length := by omega
  have hchar : s[p]? = some v[p - 3] := by
    rw [htext, List.getElem?_append_right (by simpa using hle),
      List.getElem?_append_left (by simpa using hp)]
    simp [hp]
  refine not_prefix_of_head? hchar hc fun heq => ?_
  rw [← heq, hv _ (List.getElem_mem hp)] at hblank
  cases hblank

/-! ## Places of statements -/

section Places

variable {source code : String} {span : Span}

/-- The characters of a script are those of its document. -/
theorem reads_keptFrom {s : List Char} (h : code.toList <+: s.drop start) :
    ∀ k ∈ keptFrom (.text .code) start code.toList, s[k.offset]? = some k.char := by
  intro k hk
  have hwithin := Script.within_keptFrom (.text .code) start code.toList
  have hle := hwithin.le k hk
  have hget := hwithin.getElem? k hk
  obtain ⟨rest, hrest⟩ := h
  have hdrop : (s.drop start)[k.offset - start]? = some k.char := by
    rw [← hrest, List.getElem?_append_left (List.getElem?_eq_some_iff.1 hget).1, hget]
  rwa [List.getElem?_drop, Nat.add_sub_cancel' hle] at hdrop

theorem takenFrom_placedStatements {s : List Char} (h : code.toList <+: s.drop start)
    {sts : List (List Kept)}
    (hsplit : placedStatements start code.toList = sts ++ after) : TakenFrom s start sts := by
  have hcut := Script.cut_placedStatements start code.toList
  have hwithin := Script.within_keptFrom (.text .code) start code.toList
  have hsublist := hcut.sublist
  rw [hsplit] at hcut hsublist
  have hsub : sts.flatten.Sublist (keptFrom (.text .code) start code.toList) := by
    rw [List.flatten_append] at hsublist
    exact (List.sublist_append_left _ _).trans hsublist
  exact {
    starts := fun st hst => hcut.starts st (List.mem_append_left _ hst)
    reads := fun k hk => reads_keptFrom h k (hsub.subset hk)
    behind := fun k hk => hwithin.le k (hsub.subset hk)
    sorted := hwithin.pairwise.sublist hsub }

theorem ne_empty_of_placedStatements
    (h : placedStatements start code.toList = before ++ st :: after) : code ≠ "" := by
  rintro rfl
  have hnone : placedStatements start "".toList = [] := rfl
  rw [hnone] at h
  exact absurd h.symm (by simp)

variable (hscript : (Markup.parse source).tree.frontmatter? = some (code, span))
include hscript

/-- The statements of a script that is not empty are looked up from where it starts. -/
theorem statementPlaces_eq (hne : code ≠ "") :
    let s := unifyNewlines source.toList
    statementPlaces source code = locateFrom s (scriptStart s)
      ((placedStatements (scriptStart s) code.toList).map Kept.text) := by
  intro s
  rw [statementPlaces, Script.texts_placedStatements, (findFrom?_script hscript hne).2]

/-- **A statement gets the place where it was taken**, if it differs from all statements before it
and the search goes right up to it. -/
theorem locate_traced
    (hsplit : placedStatements (scriptStart (unifyNewlines source.toList)) code.toList =
      before ++ st :: after) (hnew : ∀ b ∈ before, Kept.text b ≠ Kept.text st)
    (hwhole : Kept.Whole (Kept.firstLine st))
    (htraced : Traced (unifyNewlines source.toList) (scriptStart (unifyNewlines source.toList))
      (before ++ [st])) :
    locate (.ofFragment (Markup.parse source).tree) (some source) (Kept.text st) =
      some (Position.ofOffset (unifyNewlines source.toList) (Kept.origin st)) := by
  have hne := ne_empty_of_placedStatements hsplit
  have hstands := (findFrom?_script hscript hne).1
  have hfront : placedStatements (scriptStart (unifyNewlines source.toList)) code.toList =
      before ++ [st] ++ after := by rw [hsplit, List.append_cons]
  have htaken := takenFrom_placedStatements hstands hfront
  have hplaces := htraced.lookup_locateFrom htaken hwhole hnew (after.map Kept.text)
  rw [← List.map_cons, ← List.map_append, ← hsplit, ← statementPlaces_eq hscript hne] at hplaces
  rw [locate, Outline.ofFragment, hscript]
  dsimp only [Option.map_some]
  rw [hplaces]
  rfl

/-- **In a script without comments whose statements are lines, every statement gets the place where
it was taken**, if it differs from all statements before it. -/
theorem locate_uncommented (hcode : Script.uncomment code.toList = code.toList)
    (hline : ∀ st ∈ Script.statements code, '\n' ∉ st.toList)
    (hsplit : placedStatements (scriptStart (unifyNewlines source.toList)) code.toList =
      before ++ st :: after) (hnew : ∀ b ∈ before, Kept.text b ≠ Kept.text st) :
    locate (.ofFragment (Markup.parse source).tree) (some source) (Kept.text st) =
      some (Position.ofOffset (unifyNewlines source.toList) (Kept.origin st)) := by
  have hstands := (findFrom?_script hscript (ne_empty_of_placedStatements hsplit)).1
  have hlength : (keptFrom (.text .code) (scriptStart (unifyNewlines source.toList))
      code.toList).length = code.toList.length := by
    have hchars := Script.chars_keptFrom (.text .code)
      (scriptStart (unifyNewlines source.toList)) code.toList
    rw [← Script.uncomment, hcode] at hchars
    simpa [Kept.chars] using congrArg List.length hchars
  obtain ⟨hwhole, hhead⟩ := (Script.within_keptFrom _ _ _).whole hlength
  obtain ⟨htraced, hwholes⟩ := traced_of_cut (Script.cut_placedStatements _ _) hwhole
    (reads_keptFrom hstands) hhead fun st hst => by
      have htext := hline (Kept.text st) (by
        rw [← Script.texts_placedStatements]
        exact List.mem_map_of_mem hst)
      rwa [Kept.text, String.toList_ofList] at htext
  rw [hsplit] at htraced hwholes
  rw [List.append_cons] at htraced
  exact locate_traced hscript hsplit hnew (hwholes st (by simp)) htraced.left

end Places

end Synthesis
end Atoll
