import Atoll.Proofs.Clauses

/-!
# Types are taken away declarator by declarator

A declaration is read three times: clauses are erased from all of it, its declarators are cut apart,
and each one is written again without its type.  A list of declarators keeps its form on the way:
only the last one loses blanks at its end, and only types lose clauses.

* `Written`, `Listed` — declarators as they are written, and lists of them that are read as such.
* `Listed.exists_trimEnd`, `IsClause.eraseFrom_joined` — trimming and erasing give such lists again.
* `Listed.declaratorsFrom` — **the declarators of a list are its members**, by induction on the
  list.
* `plain?_listed` — hence what is left of a declaration.
* `plain?_annotated` — the result for names with types.
-/

set_option autoImplicit false

namespace Atoll
namespace Script

open Text

variable {closed : List Char → Prop} {s rest : List Char} {length? : List Char → Option Nat}

/-! ## Assignment signs -/

/-- The first assignment sign is not in a text without equals signs. -/
theorem findAssignFrom?_append (hs : '=' ∉ s) (before : Option Char) (n : Nesting)
    (t : List Char) : ∃ before', findAssignFrom? before (marked n (s ++ t)) =
      (findAssignFrom? before' (marked (n.after s) t)).map (· + s.length) := by
  induction s generalizing before n with
  | nil => exact ⟨before, by simp [Nesting.after]⟩
  | cons c cs ih =>
    rw [List.mem_cons, not_or] at hs
    have hc : (c == '=') = false := beq_eq_false_iff_ne.2 fun h => hs.1 h.symm
    obtain ⟨before', hmore⟩ := ih hs.2 (some c) (n.next c)
    refine ⟨before', ?_⟩
    rw [List.cons_append, marked, findAssignFrom?, hc, Bool.and_false, Bool.false_and,
      if_neg Bool.false_ne_true, hmore, Option.map_map]
    rfl

theorem findAssign?_eq_none (hs : '=' ∉ s) : findAssign? s = none := by
  obtain ⟨before, h⟩ := findAssignFrom?_append hs none .outermost []
  rw [List.append_nil] at h
  rw [findAssign?, topLevel, h]
  rfl

/-- The sign between blanks behind a text without equals signs is the first one. -/
theorem findAssign?_append (hs : '=' ∉ s) (hclosed : Nesting.outermost.after s = .outermost)
    (t : List Char) : findAssign? (s ++ ' ' :: '=' :: ' ' :: t) = some (s.length + 1) := by
  obtain ⟨before, h⟩ := findAssignFrom?_append hs none .outermost (' ' :: '=' :: ' ' :: t)
  have hsign : findAssignFrom? before (marked .outermost (' ' :: '=' :: ' ' :: t)) = some 1 := rfl
  rw [findAssign?, topLevel, h, hclosed, hsign, Option.map_some, Nat.add_comm]

/-! ## Declarators as they are written -/

/-- A pattern, what stands behind its colon, and what stands behind its equals sign. -/
structure Written where
  pattern : List Char
  type? : Option (List Char)
  init? : Option (List Char)

variable {d : Written} {ds : List Written}

namespace Written

/-- What follows the pattern. -/
def tail (d : Written) : List Char :=
  d.type?.elim [] (':' :: ·) ++ d.init?.elim [] (' ' :: '=' :: ·)

/-- A declarator with its type. -/
def text (d : Written) : List Char :=
  d.pattern ++ d.tail

/-- A declarator without its type. -/
def declarator (d : Written) : Declarator :=
  ⟨String.ofList d.pattern, String.ofList (trim (d.init?.getD []))⟩

/-- A declarator with something erased from its type. -/
def erase (erased : List Char → List Char) (d : Written) : Written :=
  { d with type? := d.type?.map erased }

/-- A declarator that can be read by itself.  Its equals sign is the first one, and is found if the
type in front of it is closed; what follows has no clauses and no commas. -/
structure Reads (closed : List Char → Prop) (d : Written) : Prop where
  pattern : ReadsPattern d.pattern
  start : ∃ c ∈ d.pattern.head?, isBlank c = false
  stop : trimEnd d.pattern = d.pattern
  free : hasClause (' ' :: d.pattern) = false
  type : ∀ t ∈ d.type?, '=' ∉ t ∧ (d.init?.isSome → closed t)
  init : ∀ e ∈ d.init?, e.head? = some ' ' ∧ trim e ≠ [] ∧ topComma .outermost e = false ∧
    hasClause e = false

/-- A declarator behind which another one can follow.  A type is skipped up to the next equals sign,
so that sign has to be its own. -/
structure GoesOn (d : Written) : Prop where
  type : d.type?.isSome → d.init?.isSome
  init : ∀ e ∈ d.init?, Nesting.outermost.after e = .outermost

end Written

/-- Declarators that can be read one behind the other. -/
inductive Listed (closed : List Char → Prop) : List Written → Prop where
  | last {d : Written} (h : d.Reads closed) : Listed closed [d]
  | more {d : Written} {ds : List Written} (h : d.Reads closed) (hgoes : d.GoesOn)
      (hds : Listed closed ds) : Listed closed (d :: ds)

/-- The text of a list of declarators. -/
def joined (ds : List Written) : List Char :=
  [',', ' '].intercalate (ds.map Written.text)

theorem joined_cons (d : Written) (hds : ds ≠ []) :
    joined (d :: ds) = d.text ++ ',' :: ' ' :: joined ds := by
  obtain ⟨e, es, rfl⟩ := List.exists_cons_of_ne_nil hds
  simp [joined, List.intercalate_cons_cons]

theorem joined_singleton (d : Written) : joined [d] = d.text := by
  simp [joined]

theorem Listed.ne_nil (h : Listed closed ds) : ds ≠ [] := by
  cases h <;> exact List.cons_ne_nil _ _

/-- What may follow a declarator: nothing, or a comma if it lets another one follow. -/
def Written.Before (d : Written) (rest : List Char) : Prop :=
  rest = [] ∨ (∃ more, rest = ',' :: more) ∧ d.GoesOn

theorem Written.Before.stops (h : d.Before rest) : Stops rest := by
  rcases h with rfl | ⟨⟨more, rfl⟩, -⟩
  · exact stops_nil
  · exact stops_cons rfl (by decide +kernel) (by decide) more

/-- A type without a value stands last. -/
theorem Written.Before.eq_nil (h : d.Before rest) (htype : d.type?.isSome = true)
    (hinit : d.init? = none) : rest = [] := by
  rcases h with rfl | ⟨-, hgoes⟩
  · rfl
  · have hsome := hgoes.type htype
    rw [hinit] at hsome
    cases hsome

/-- A pattern is followed by a colon, an equals sign, or what follows its declarator. -/
theorem Written.stops_tail (d : Written) (hrest : Stops rest) : Stops (d.tail ++ rest) := by
  obtain ⟨pattern, type?, init?⟩ := d
  cases type? with
  | some t => exact stops_cons rfl (by decide +kernel) (by decide) _
  | none =>
    cases init? with
    | some e => exact stops_equals _
    | none => exact hrest

namespace Written.Reads

variable {closed : List Char → Prop} {d : Written} (h : d.Reads closed)
  {length? : List Char → Option Nat} (hclause : IsClause length?) {rest : List Char}
  (hrest : d.Before rest)
include h hclause hrest

/-- **Only the type loses clauses.** -/
theorem eraseFrom_tail :
    eraseFrom length? 0 (d.tail ++ rest) =
      (d.erase (eraseFrom length? 0)).tail ++ eraseFrom length? 0 rest := by
  obtain ⟨pattern, type?, init?⟩ := d
  have hinit : ∀ e ∈ init?, eraseFrom length? 0 (e ++ rest) = e ++ eraseFrom length? 0 rest :=
    fun e he => hclause.eraseFrom_free (h.init e he).2.2.2 hrest.stops
  cases type? with
  | none =>
    cases init? with
    | none => rfl
    | some e =>
      have hequals := hclause.eraseFrom_equals [] (e ++ rest)
      rw [hinit e rfl] at hequals
      exact hequals
  | some t =>
    have hcolon : ∀ more, eraseFrom length? 0 (':' :: more) = ':' :: eraseFrom length? 0 more :=
      hclause.eraseFrom_cons rfl
    cases init? with
    | none =>
      obtain rfl := hrest.eq_nil rfl rfl
      have htype := hcolon (t ++ [])
      rw [List.append_nil] at htype
      simpa only [tail, erase, Option.elim, Option.map_some, List.append_nil,
        show eraseFrom length? 0 [] = [] from rfl] using htype
    | some e =>
      have htype := hcolon (t ++ ' ' :: '=' :: (e ++ rest))
      rw [hclause.eraseFrom_equals, hinit e rfl] at htype
      simpa only [tail, erase, Option.elim, Option.map_some, List.cons_append, List.append_assoc]
        using htype

theorem eraseFrom_text :
    eraseFrom length? 0 (' ' :: (d.text ++ rest)) =
      ' ' :: ((d.erase (eraseFrom length? 0)).text ++ eraseFrom length? 0 rest) := by
  have hpattern := hclause.eraseFrom_free h.free (d.stops_tail hrest.stops)
  rw [h.eraseFrom_tail hclause hrest, List.cons_append, List.cons_append, ← List.append_assoc,
    ← List.append_assoc] at hpattern
  exact hpattern

end Written.Reads

/-- Erasing clauses from a list erases them from the types of its declarators. -/
theorem IsClause.eraseFrom_joined (hclause : IsClause length?) (h : Listed closed ds) :
    eraseFrom length? 0 (' ' :: joined ds) =
      ' ' :: joined (ds.map (Written.erase (eraseFrom length? 0))) := by
  induction h with
  | last h =>
    have htext := h.eraseFrom_text hclause (.inl rfl)
    rw [List.append_nil] at htext
    rw [joined_singleton, htext, List.map_singleton, joined_singleton, eraseFrom, List.append_nil]
  | @more d ds h hgoes hds ih =>
    have htext := h.eraseFrom_text hclause (.inr ⟨⟨' ' :: joined ds, rfl⟩, hgoes⟩)
    have hcomma : eraseFrom length? 0 (',' :: ' ' :: joined ds) =
        ',' :: eraseFrom length? 0 (' ' :: joined ds) := hclause.eraseFrom_cons rfl _
    rw [hcomma, ih] at htext
    have hne : ds.map (Written.erase (eraseFrom length? 0)) ≠ [] := by simpa using hds.ne_nil
    rw [joined_cons d hds.ne_nil, htext, List.map_cons, joined_cons _ hne]

/-! ## Blanks at the end -/

theorem trimEnd_cons {c : Char} (hc : isBlank c = false) (s : List Char) :
    trimEnd (c :: s) = c :: trimEnd s := by
  by_cases hnil : trimEnd s = []
  · have hblank := List.all_eq_true.1 (trimEnd_eq_nil.1 hnil)
    rw [hnil, ← List.singleton_append, trimEnd_append_blank hblank]
    simp [trimEnd, hc]
  · exact trimEnd_append hnil [c]

/-- The last declarator without the blanks at its end is read in the same way. -/
theorem Written.Reads.exists_trimEnd (h : d.Reads closed) :
    ∃ d' : Written, d'.Reads closed ∧ trimEnd d.text = d'.text ∧ d'.declarator = d.declarator := by
  obtain ⟨pattern, type?, init?⟩ := d
  cases init? with
  | some e =>
    obtain ⟨hhead, htrim, hcomma, hclause⟩ := h.init e rfl
    obtain ⟨e, rfl⟩ := List.head?_eq_some_iff.1 hhead
    obtain ⟨w, hw, hsplit⟩ := exists_trimEnd_append (' ' :: e)
    have hne : trimEnd (' ' :: e) ≠ [] := by
      intro hnil
      rw [← trim_trimEnd, hnil] at htrim
      exact htrim rfl
    have hend : trimEnd e ≠ [] := by
      intro hnil
      have hblank := List.all_eq_true.1 (trimEnd_eq_nil.1 hnil)
      rw [← List.singleton_append, trimEnd_append_blank hblank] at hne
      exact hne rfl
    have hspace : trimEnd (' ' :: e) = ' ' :: trimEnd e := trimEnd_append hend [' ']
    refine ⟨⟨pattern, type?, some (trimEnd (' ' :: e))⟩,
      ⟨h.pattern, h.start, h.stop, h.free, h.type, ?_⟩, ?_, ?_⟩
    · rintro _ ⟨⟩
      refine ⟨by rw [hspace]; rfl, by rwa [trim_trimEnd], ?_, ?_⟩
      · exact topComma_of_append (by rw [← hsplit]; exact hcomma)
      · exact hasClause_of_append hw (by rw [← hsplit]; exact hclause)
    · have happend := trimEnd_append hne
        (pattern ++ (type?.elim [] (':' :: ·) ++ [' ', '=']))
      simpa [text, tail] using happend
    · simp [declarator, trim_trimEnd]
  | none =>
    cases type? with
    | some t =>
      have hcolon : trimEnd (':' :: t) = ':' :: trimEnd t := trimEnd_cons rfl t
      refine ⟨⟨pattern, some (trimEnd t), none⟩,
        ⟨h.pattern, h.start, h.stop, h.free, ?_, by rintro _ ⟨⟩⟩, ?_, rfl⟩
      · rintro _ ⟨⟩
        refine ⟨fun hmem => (h.type t rfl).1 ?_, by rintro ⟨⟩⟩
        obtain ⟨w, -, hsplit⟩ := exists_trimEnd_append t
        rw [hsplit]
        exact List.mem_append_left w hmem
      · have happend := trimEnd_append (s := ':' :: t) (by rw [hcolon]; exact List.cons_ne_nil _ _)
          pattern
        rw [hcolon] at happend
        simpa [text, tail] using happend
    | none =>
      refine ⟨_, h, ?_, rfl⟩
      simpa [text, tail] using h.stop

theorem Written.Reads.exists_text (h : d.Reads closed) :
    ∃ c cs, d.text = c :: cs ∧ isBlank c = false := by
  obtain ⟨c, hc, hblank⟩ := h.start
  obtain ⟨cs, hpattern⟩ := List.head?_eq_some_iff.1 hc
  exact ⟨c, cs ++ d.tail, by rw [text, hpattern]; rfl, hblank⟩

theorem Listed.exists_joined
    (h : Listed closed ds) : ∃ c cs, joined ds = c :: cs ∧ isBlank c = false := by
  cases h with
  | last h =>
    rw [joined_singleton]
    exact h.exists_text
  | more h _ hds =>
    obtain ⟨c, cs, htext, hblank⟩ := h.exists_text
    rw [joined_cons _ hds.ne_nil, htext]
    exact ⟨c, _, rfl, hblank⟩

theorem Listed.trimStart_joined (h : Listed closed ds) : trimStart (joined ds) = joined ds := by
  obtain ⟨c, cs, hjoined, hblank⟩ := h.exists_joined
  rw [hjoined]
  exact trimStart_of_head hblank cs

/-- A list without the blanks at its end declares the same. -/
theorem Listed.exists_trimEnd
    (h : Listed closed ds) : ∃ ds', Listed closed ds' ∧ trimEnd (joined ds) = joined ds' ∧
      ds'.map Written.declarator = ds.map Written.declarator := by
  induction h with
  | last h =>
    obtain ⟨d', hd', htext, hsame⟩ := h.exists_trimEnd
    exact ⟨[d'], .last hd', by rw [joined_singleton, joined_singleton, htext], by simp [hsame]⟩
  | @more d ds h hgoes hds ih =>
    obtain ⟨ds', hds', hjoined, hsame⟩ := ih
    have hne : trimEnd (joined ds) ≠ [] := by
      obtain ⟨c, cs, hcons, -⟩ := hds'.exists_joined
      rw [hjoined, hcons]
      exact List.cons_ne_nil _ _
    refine ⟨d :: ds', .more h hgoes hds', ?_, by simp [hsame]⟩
    have happend := trimEnd_append hne (d.text ++ [',', ' '])
    rw [hjoined] at happend
    simpa [joined_cons d hds.ne_nil, joined_cons d hds'.ne_nil] using happend

/-! ## Cutting a list apart -/

/-- The brackets and quotes that a text opens are closed where it ends. -/
def EndsOutermost (s : List Char) : Prop :=
  Nesting.outermost.after s = .outermost

instance (s : List Char) : Decidable (EndsOutermost s) :=
  inferInstanceAs (Decidable (_ = _))

theorem afterTypeMark_colon (s : List Char) : afterTypeMark (':' :: s) =
    ((findAssign? (':' :: s)).map fun i => (':' :: s).drop i).getD [] := by
  rw [afterTypeMark]
  cases findAssign? (':' :: s) with
  | none => rfl
  | some i => rfl

namespace Written.Reads

variable {d : Written} (h : d.Reads EndsOutermost) {rest : List Char} (hrest : d.Before rest)
include h hrest

/-- **A type is skipped up to the equals sign behind it.** -/
theorem initializer_tail :
    initializer (afterTypeMark (trimStart (d.tail ++ rest))) = (trim (d.init?.getD []), rest) := by
  obtain ⟨pattern, type?, init?⟩ := d
  cases init? with
  | some e =>
    obtain ⟨hhead, -, hcomma, -⟩ := h.init e rfl
    have hvalue : initializer ('=' :: (e ++ rest)) = (trim e, rest) := by
      rcases hrest with rfl | ⟨⟨more, rfl⟩, hgoes⟩
      · rw [List.append_nil, initializer_of_no_comma hcomma]
      · exact initializer_of_comma hcomma (hgoes.init e rfl) more
    obtain ⟨e, rfl⟩ := List.head?_eq_some_iff.1 hhead
    have hmark : afterTypeMark (trimStart (tail ⟨pattern, type?, some (' ' :: e)⟩ ++ rest)) =
        '=' :: (' ' :: e ++ rest) := by
      cases type? with
      | none => rfl
      | some t =>
        -- the type has no equals sign, so the first one is that of the initial value
        obtain ⟨hequals, hclosed⟩ := h.type t rfl
        have hcolon : '=' ∉ ':' :: t := by simpa using hequals
        have hafter : Nesting.outermost.after (':' :: t) = .outermost := hclosed rfl
        have htext : tail ⟨pattern, some t, some (' ' :: e)⟩ ++ rest =
            ':' :: (t ++ ' ' :: '=' :: ' ' :: (e ++ rest)) := by simp [tail]
        rw [htext, trimStart_of_head rfl, afterTypeMark_colon, ← List.cons_append,
          findAssign?_append hcolon hafter, Option.map_some, Option.getD_some,
          List.drop_length_add_append]
        rfl
    rw [hmark, hvalue]
    rfl
  | none =>
    cases type? with
    | some t =>
      -- an equals sign of another declarator would be taken, but none follows
      obtain rfl := hrest.eq_nil rfl rfl
      have hcolon : '=' ∉ ':' :: t := by simpa using (h.type t rfl).1
      have htext : tail ⟨pattern, some t, none⟩ ++ [] = ':' :: t := by simp [tail]
      rw [htext, trimStart_of_head rfl, afterTypeMark_colon, findAssign?_eq_none hcolon]
      rfl
    | none =>
      rcases hrest with rfl | ⟨⟨more, rfl⟩, -⟩
      · rfl
      · rfl

/-- One declarator is read off, in front of whatever is read behind a comma. -/
theorem declaratorsFrom_text (fuel : Nat) :
    declaratorsFrom (fuel + 1) (d.text ++ rest) = goOn fuel d.declarator rest := by
  have hhead : ∀ c ∈ (d.tail ++ rest).head?, isNameRest c = false := fun c hc =>
    ((d.stops_tail hrest.stops).head? c hc).1
  have hlength : patternLength (d.text ++ rest) = d.pattern.length := by
    rw [text, List.append_assoc]
    exact h.pattern _ hhead
  have hpos : (d.pattern.length == 0) = false := by
    obtain ⟨c, hc, -⟩ := h.start
    exact beq_eq_false_iff_ne.2 (Nat.ne_of_gt (List.length_pos_of_mem (List.mem_of_mem_head? hc)))
  rw [declaratorsFrom_succ, hlength, hpos, text, List.append_assoc, List.drop_left, List.take_left,
    h.initializer_tail hrest]
  rfl

end Written.Reads

/-- **The declarators of a list are its members**, without their types. -/
theorem Listed.declaratorsFrom (h : Listed EndsOutermost ds) {fuel : Nat}
    (hfuel : ds.length ≤ fuel) :
    Script.declaratorsFrom fuel (joined ds) = ds.map Written.declarator := by
  induction h generalizing fuel with
  | @last d h =>
    obtain ⟨fuel, rfl⟩ : ∃ m, fuel = m + 1 := ⟨fuel - 1, by simp at hfuel; omega⟩
    have htext := h.declaratorsFrom_text (.inl rfl) fuel
    rw [List.append_nil] at htext
    rw [joined_singleton, htext]
    rfl
  | @more d ds h hgoes hds ih =>
    obtain ⟨fuel, rfl⟩ : ∃ m, fuel = m + 1 := ⟨fuel - 1, by simp at hfuel; omega⟩
    have hrest := ih (Nat.le_of_succ_le_succ hfuel)
    have hspace : trimStart (' ' :: joined ds) = joined ds := hds.trimStart_joined
    rw [joined_cons d hds.ne_nil, h.declaratorsFrom_text (.inr ⟨⟨_, rfl⟩, hgoes⟩) fuel]
    show d.declarator :: Script.declaratorsFrom fuel (trimStart (' ' :: joined ds)) = _
    rw [hspace, hrest, List.map_cons]

theorem Listed.length_le (h : Listed closed ds) : ds.length ≤ (joined ds).length := by
  induction h with
  | last h =>
    obtain ⟨c, cs, htext, -⟩ := h.exists_text
    rw [joined_singleton, htext]
    simp
  | more h _ hds ih =>
    rw [joined_cons _ hds.ne_nil, List.length_append, List.length_cons, List.length_cons,
      List.length_cons]
    omega

theorem Listed.declarators (h : Listed EndsOutermost ds) :
    Script.declarators (joined ds) = ds.map Written.declarator := by
  obtain ⟨ds', hds', hjoined, hsame⟩ := h.exists_trimEnd
  rw [Script.declarators, trim, h.trimStart_joined, hjoined, ← hsame]
  exact hds'.declaratorsFrom hds'.length_le

/-! ## The declaration of a list -/

/-- A text without its type clauses. -/
def withoutClauses (s : List Char) : List Char :=
  eraseFrom satisfies? 0 (eraseFrom asConst? 0 s)

/-- Erasing clauses from the types of a list leaves a list. -/
theorem Listed.erase (h : Listed (fun t => closed (eraseFrom length? 0 t)) ds) :
    Listed closed (ds.map (Written.erase (eraseFrom length? 0))) := by
  have hreads : ∀ d : Written, d.Reads (fun t => closed (eraseFrom length? 0 t)) →
      (d.erase (eraseFrom length? 0)).Reads closed := by
    intro d hd
    refine ⟨hd.pattern, hd.start, hd.stop, hd.free, ?_, hd.init⟩
    intro t ht
    obtain ⟨u, hu, rfl⟩ := Option.map_eq_some_iff.1 ht
    exact ⟨fun hmem => (hd.type u hu).1 ((eraseFrom_sublist length? 0 u).subset hmem),
      (hd.type u hu).2⟩
  induction h with
  | last h => exact .last (hreads _ h)
  | more h hgoes _ ih =>
    refine .more (hreads _ h) ⟨fun htype => hgoes.type ?_, hgoes.init⟩ ih
    simpa [Written.erase] using htype

theorem map_declarator_erase (erased : List Char → List Char) (ds : List Written) :
    (ds.map (Written.erase erased)).map Written.declarator = ds.map Written.declarator := by
  rw [List.map_map]
  rfl

theorem isBlank_of_declarationWord {word : String} (hword : word ∈ declarationWords) :
    word.toList ≠ [] ∧ ∀ c ∈ word.toList, isBlank c = false := by
  rcases eq_of_mem_declarationWords hword with rfl | rfl | rfl
  · exact ⟨by simp, isBlank_of_all rfl⟩
  · exact ⟨by simp, isBlank_of_all rfl⟩
  · exact ⟨by simp, isBlank_of_all rfl⟩

theorem afterExport_declaration {word : String} (hword : word ∈ declarationWords) (s : List Char) :
    afterExport (word.toList ++ s) = word.toList ++ s := by
  rcases eq_of_mem_declarationWords hword with rfl | rfl | rfl <;> rfl

section

variable {word : String} (hword : word ∈ declarationWords) {ds : List Written}
include hword

/-- The word of a declaration and the blank behind it stay. -/
theorem eraseFrom_declaration (hclause : IsClause length?) (h : Listed closed ds) :
    eraseFrom length? 0 (word.toList ++ ' ' :: joined ds) =
      word.toList ++ ' ' :: joined (ds.map (Written.erase (eraseFrom length? 0))) := by
  rw [← hclause.eraseFrom_joined h]
  generalize ' ' :: joined ds = more
  have hblank := (isBlank_of_declarationWord hword).2
  generalize word.toList = letters at hblank
  induction letters with
  | nil => rfl
  | cons c cs ih =>
    rw [List.forall_mem_cons] at hblank
    rw [List.cons_append, hclause.eraseFrom_cons hblank.1, ih hblank.2, List.cons_append]

theorem declaration?_listed (h : Listed closed ds) :
    declaration? (word.toList ++ ' ' :: joined ds) = some (word.toList ++ [' '], joined ds) :=
  declaration?_word hword (List.cons_ne_nil ' ' []) (by simp [show isBlank ' ' = true from rfl])
    h.trimStart_joined

/-- **What is left of a declaration** is its word and its declarators without their types. -/
theorem plain?_listed (h : Listed (fun t => EndsOutermost (withoutClauses t)) ds) :
    plain? (String.ofList (word.toList ++ ' ' :: joined ds)) =
      some (word ++ " " ++ ", ".intercalate (ds.map fun d => d.declarator.text)) := by
  obtain ⟨ds', hds', hjoined, hsame⟩ := h.exists_trimEnd
  have htrim : trim (word.toList ++ ' ' :: joined ds) = word.toList ++ ' ' :: joined ds' := by
    obtain ⟨hne, hblank⟩ := isBlank_of_declarationWord hword
    obtain ⟨c, cs, hletters⟩ := List.exists_cons_of_ne_nil hne
    have hstart : trimStart (word.toList ++ ' ' :: joined ds) =
        word.toList ++ ' ' :: joined ds := by
      rw [hletters]
      exact trimStart_of_head (hblank c (by rw [hletters]; exact List.mem_cons_self)) _
    have hend : trimEnd (joined ds) ≠ [] := by
      obtain ⟨c, cs, hcons, -⟩ := hds'.exists_joined
      rw [hjoined, hcons]
      exact List.cons_ne_nil _ _
    have happend := trimEnd_append hend (word.toList ++ [' '])
    rw [List.append_assoc, List.singleton_append, List.append_assoc,
      List.singleton_append] at happend
    rw [trim, hstart, happend, hjoined]
  -- both kinds of clauses are erased, one after the other; either time a list is left
  have hconst := eraseFrom_declaration hword isClause_asConst? hds'
  have hmiddle : Listed (fun t => EndsOutermost (eraseFrom satisfies? 0 t))
      (ds'.map (Written.erase (eraseFrom asConst? 0))) := Listed.erase hds'
  have hsatisfies := eraseFrom_declaration hword isClause_satisfies? hmiddle
  have hlist := hmiddle.erase
  rw [plain?, String.toList_ofList, htrim, isErased_declaration hword,
    afterExport_declaration hword, hconst, hsatisfies]
  dsimp only
  rw [if_neg Bool.false_ne_true, declaration?_listed hword hlist]
  dsimp only
  rw [hlist.declarators, map_declarator_erase, map_declarator_erase, hsame, List.map_map]
  refine congrArg some (String.toList_inj.1 ?_)
  simp [Function.comp_def]

end

/-! ## Names with types -/

/-- A name with its type and its initial value, as a script with types declares it. -/
structure Annotated where
  name : String
  type? : Option String
  init? : Option String

variable {d : Annotated}

namespace Annotated

/-- The declarator with its type. -/
def text (d : Annotated) : String :=
  d.name ++ d.type?.elim "" (": " ++ ·) ++ d.init?.elim "" (" = " ++ ·)

/-- The declarator without its type. -/
def bareText (d : Annotated) : String :=
  d.name ++ d.init?.elim "" fun e => " = " ++ strip e

/-- A name, maybe with a type without equals signs, and maybe with an initial value that is closed,
has no comma of its own and no type clause. -/
structure IsPlain (d : Annotated) : Prop where
  name : Scope.isName d.name.toList = true
  type : ∀ t ∈ d.type?, '=' ∉ t.toList
  init : ∀ e ∈ d.init?, strip e ≠ "" ∧ EndsOutermost e.toList ∧
    topComma .outermost e.toList = false ∧ hasClause (' ' :: e.toList) = false

instance (d : Annotated) : Decidable d.IsPlain :=
  decidable_of_iff (Scope.isName d.name.toList = true ∧ (∀ t ∈ d.type?, '=' ∉ t.toList) ∧
      ∀ e ∈ d.init?, strip e ≠ "" ∧ EndsOutermost e.toList ∧ topComma .outermost e.toList = false ∧
        hasClause (' ' :: e.toList) = false)
    ⟨fun h => ⟨h.1, h.2.1, h.2.2⟩, fun h => ⟨h.name, h.type, h.init⟩⟩

/-- The declarator as it is written. -/
def written (d : Annotated) : Written :=
  ⟨d.name.toList, d.type?.map (' ' :: ·.toList), d.init?.map (' ' :: ·.toList)⟩

theorem text_written (d : Annotated) : d.written.text = d.text.toList := by
  obtain ⟨name, type?, init?⟩ := d
  cases type? <;> cases init? <;> simp [written, text, Written.text, Written.tail]

theorem IsPlain.trim_init (h : d.IsPlain) {e : String} (he : d.init? = some e) :
    trim (' ' :: e.toList) ≠ [] := by
  intro hnil
  exact (h.init e he).1 (congrArg String.ofList (hnil : trim e.toList = []))

theorem IsPlain.reads (h : d.IsPlain)
    (hclosed : ∀ t ∈ d.type?, d.init?.isSome → EndsOutermost (withoutClauses (' ' :: t.toList))) :
    d.written.Reads fun t => EndsOutermost (withoutClauses t) where
  pattern _ hmore := patternLength_name h.name hmore
  start := by
    obtain ⟨c, cs, hname, -⟩ := exists_of_isName h.name
    exact ⟨c, by rw [written, hname]; rfl,
      isBlank_of_isName h.name c (by rw [hname]; exact List.mem_cons_self)⟩
  stop := by
    have htrim : trim d.name.toList = d.name.toList := trim_eq_self (isBlank_of_isName h.name)
    rw [written, ← htrim, trim, trimEnd_trimEnd]
  free := hasClause_name (isBlank_of_isName h.name)
  type := by
    intro t ht
    obtain ⟨u, hu, rfl⟩ := Option.map_eq_some_iff.1 ht
    refine ⟨by simpa using h.type u hu, fun hinit => hclosed u hu ?_⟩
    simpa [written] using hinit
  init := by
    intro e he
    obtain ⟨u, hu, rfl⟩ := Option.map_eq_some_iff.1 he
    obtain ⟨-, -, hcomma, hclause⟩ := h.init u hu
    refine ⟨rfl, h.trim_init hu, ?_, hclause⟩
    rw [Nesting.outermost, topComma_ordinary rfl]
    exact hcomma

theorem IsPlain.goesOn (h : d.IsPlain) (hown : d.type?.isSome → d.init?.isSome) :
    d.written.GoesOn where
  type htype := by
    rw [written, Option.isSome_map] at htype ⊢
    exact hown htype
  init := by
    intro e he
    obtain ⟨u, hu, rfl⟩ := Option.map_eq_some_iff.1 he
    exact (h.init u hu).2.1

theorem IsPlain.text_declarator (h : d.IsPlain) : d.written.declarator.text = d.bareText := by
  obtain ⟨name, type?, init?⟩ := d
  cases init? with
  | none => simp [written, Written.declarator, Declarator.text, bareText, trim, trimStart, trimEnd]
  | some e =>
    have hne : strip e ≠ "" := (h.init e rfl).1
    have hstrip : String.ofList (trim (' ' :: e.toList)) = strip e := rfl
    simp [written, Written.declarator, Declarator.text, bareText, hne, hstrip, String.append_assoc]

theorem listed_written {ds : List Annotated} (hne : ds ≠ []) (hplain : ∀ d ∈ ds, d.IsPlain)
    (hown : ∀ d ∈ ds.dropLast, d.type?.isSome → d.init?.isSome)
    (hclosed : ∀ d ∈ ds, ∀ t ∈ d.type?, d.init?.isSome →
      EndsOutermost (withoutClauses (' ' :: t.toList))) :
    Listed (fun t => EndsOutermost (withoutClauses t)) (ds.map written) := by
  induction ds with
  | nil => exact absurd rfl hne
  | cons d ds ih =>
    rw [List.forall_mem_cons] at hplain hclosed
    have hreads := hplain.1.reads hclosed.1
    by_cases hds : ds = []
    · subst hds
      exact .last hreads
    · rw [List.dropLast_cons_of_ne_nil hds, List.forall_mem_cons] at hown
      exact .more hreads (hplain.1.goesOn hown.1) (ih hds hplain.2 hown.2 hclosed.2)

end Annotated

/-- **Types are taken away declarator by declarator.**  Each name keeps its own initial value or
none, if a name with a type has an initial value of its own or stands last, and if the type is
closed where its clauses have been erased. -/
theorem plain?_annotated {word : String} (hword : word ∈ declarationWords) {ds : List Annotated}
    (hne : ds ≠ []) (hplain : ∀ d ∈ ds, d.IsPlain)
    (hown : ∀ d ∈ ds.dropLast, d.type?.isSome → d.init?.isSome)
    (hclosed : ∀ d ∈ ds, ∀ t ∈ d.type?, d.init?.isSome →
      EndsOutermost (withoutClauses (' ' :: t.toList))) :
    plain? (word ++ " " ++ ", ".intercalate (ds.map Annotated.text)) =
      some (word ++ " " ++ ", ".intercalate (ds.map Annotated.bareText)) := by
  have hsource : word ++ " " ++ ", ".intercalate (ds.map Annotated.text) =
      String.ofList (word.toList ++ ' ' :: joined (ds.map Annotated.written)) := by
    have htexts : (ds.map Annotated.written).map Written.text =
        (ds.map Annotated.text).map String.toList := by
      rw [List.map_map, List.map_map]
      exact List.map_congr_left fun d _ => d.text_written
    refine String.toList_inj.1 ?_
    rw [joined, htexts]
    simp [String.toList_intercalate]
  have hbare : (ds.map Annotated.written).map (fun d => d.declarator.text) =
      ds.map Annotated.bareText := by
    rw [List.map_map]
    exact List.map_congr_left fun d hd => (hplain d hd).text_declarator
  rw [hsource, plain?_listed hword (Annotated.listed_written hne hplain hown hclosed), hbare]

/-- Names with types, one of them with a comma in its type and one with a clause. -/
def typedNames : List Annotated :=
  [⟨"a", some "Map<string, number>", some "f(1, [2])"⟩, ⟨"b", none, none⟩,
    ⟨"c", some "T satisfies U", some "'x, y'"⟩, ⟨"d", some "T", none⟩]

theorem plain?_annotated_typedNames :
    (∀ d ∈ typedNames, d.IsPlain) ∧
      (∀ d ∈ typedNames.dropLast, d.type?.isSome → d.init?.isSome) ∧
      (∀ d ∈ typedNames, ∀ t ∈ d.type?, d.init?.isSome →
        EndsOutermost (withoutClauses (' ' :: t.toList))) ∧
      plain? "let a: Map<string, number> = f(1, [2]), b, c: T satisfies U = 'x, y', d: T" =
        some "let a = f(1, [2]), b, c = 'x, y', d" := by
  have hplain : ∀ d ∈ typedNames, d.IsPlain := by
    decide +kernel
  have hown : ∀ d ∈ typedNames.dropLast, d.type?.isSome → d.init?.isSome := by
    decide +kernel
  have hclosed : ∀ d ∈ typedNames, ∀ t ∈ d.type?, d.init?.isSome →
      EndsOutermost (withoutClauses (' ' :: t.toList)) := by
    decide +kernel
  have hword : "let" ∈ declarationWords := by simp [declarationWords]
  have hresult := plain?_annotated hword (List.cons_ne_nil _ _) hplain hown hclosed
  exact ⟨hplain, hown, hclosed, hresult⟩

/-- A type without a value takes the value of the next name, or hides the names behind it; a clause
in a quoted type hides the value. -/
theorem plain?_annotated_unassigned :
    plain? "const a: number, b = 1" = some "const a = 1" ∧ plain? "let a: T, b" = some "let a" ∧
      plain? "const a: \"x satisfies A<\" | B<C> = 1" = some "const a" := by
  refine ⟨?_, ?_, ?_⟩ <;> decide +kernel

end Script
end Atoll
