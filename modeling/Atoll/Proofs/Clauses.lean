import Atoll.Proofs.Restating

/-!
# Type clauses do not reach over what stops them

Clauses are looked for in the whole text of a statement.  A clause ends with a name or with type
arguments, so a part of a statement can be erased by itself if nothing behind it goes on with a
name.

* `Stops` — such texts; `asConst?_append`, `isSome_satisfies?_append_stops`: a clause in front of
  one is found there just the same.
* `satisfies?_append_equals` — type arguments end in front of an equals sign.
* `IsClause` — what both kinds of clauses have in common; `IsClause.eraseFrom_free`,
  `IsClause.eraseFrom_equals` say what is erased in front of such texts.
-/

set_option autoImplicit false

namespace Atoll
namespace Script

open Text

variable {c : Char} {r s t : List Char} {word : String}

/-! ## What stops a clause -/

/-- The first character that is not blank belongs to no name. -/
def Stops (s : List Char) : Prop :=
  ∀ c ∈ (trimStart s).head?, isNameRest c = false ∧ c ≠ '.'

theorem stops_nil : Stops [] := by
  rintro c ⟨⟩

theorem stops_cons (hc : isBlank c = false) (hname : isNameRest c = false) (hdot : c ≠ '.')
    (cs : List Char) : Stops (c :: cs) := by
  rw [Stops, trimStart_of_head hc]
  rintro d ⟨⟩
  exact ⟨hname, hdot⟩

theorem stops_blank (hc : isBlank c = true) {cs : List Char} (h : Stops cs) : Stops (c :: cs) := by
  rw [Stops, trimStart, List.dropWhile_cons_of_pos hc]
  exact h

theorem Stops.head? (h : Stops s) : ∀ c ∈ s.head?, isNameRest c = false ∧ c ≠ '.' := by
  intro c hc
  obtain ⟨cs, rfl⟩ := List.head?_eq_some_iff.1 hc
  cases hblank : isBlank c with
  | true => exact ⟨isNameRest_of_isBlank hblank, ne_of_isBlank hblank rfl⟩
  | false =>
    rw [Stops, trimStart_of_head hblank] at h
    exact h c rfl

/-- Such a text does not start in the middle of blanks and names with a name behind them. -/
theorem Stops.not_append {lead : List Char} (h : Stops (lead ++ c :: r))
    (hlead : ∀ d ∈ lead, isBlank d = true ∨ isNameRest d = true)
    (hc : isNameRest c = true ∨ c = '.') : False := by
  induction lead with
  | nil =>
    obtain ⟨hrest, hdot⟩ := h.head? c rfl
    rcases hc with hc | hc
    · exact Bool.false_ne_true (hrest.symm.trans hc)
    · exact hdot hc
  | cons d ds ih =>
    rw [List.forall_mem_cons] at hlead
    rcases hlead.1 with hd | hd
    · rw [List.cons_append, Stops, trimStart, List.dropWhile_cons_of_pos hd] at h
      exact ih h hlead.2
    · exact Bool.false_ne_true ((h.head? d rfl).1.symm.trans hd)

/-! ## Clauses in front of it -/

/-- The words that start a clause. -/
def clauseWords : List String :=
  ["as", "satisfies"]

theorem isNameRest_of_clauseWord (h : word ∈ clauseWords) :
    word.toList ≠ [] ∧ ∀ c ∈ word.toList, isNameRest c = true := by
  simp only [clauseWords, List.mem_cons, List.not_mem_nil, or_false] at h
  rcases h with rfl | rfl
  · exact ⟨by simp, List.all_eq_true.1 (by decide +kernel)⟩
  · exact ⟨by simp, List.all_eq_true.1 (by decide +kernel)⟩

theorem isBlank_of_isNameRest (h : isNameRest c = true ∨ c = '.') : isBlank c = false := by
  refine Bool.eq_false_of_not_eq_true fun hblank => ?_
  rcases h with h | rfl
  · exact Bool.false_ne_true ((isNameRest_of_isBlank hblank).symm.trans h)
  · cases hblank

/-- A word of a clause stands between blanks. -/
theorem afterSpacedWord?_eq_some (hword : word ∈ clauseWords) (hc : isBlank c = false) :
    afterSpacedWord? word s = some (c :: r) ↔ ∃ lead gap, lead ≠ [] ∧ gap ≠ [] ∧
      (∀ d ∈ lead, isBlank d = true) ∧ (∀ d ∈ gap, isBlank d = true) ∧
      s = lead ++ (word.toList ++ (gap ++ c :: r)) := by
  have hblanks : ∀ (l : List Char), ∀ d ∈ l.takeWhile isBlank, isBlank d = true := fun l =>
    List.all_eq_true.1 List.all_takeWhile
  rw [afterSpacedWord?]
  constructor
  · intro h
    split at h
    · rename_i hhead
      obtain ⟨b, v, hstart, hb, hv⟩ := afterWord?_eq_some.1 h
      have hgap : v = v.takeWhile isBlank ++ c :: r := by
        rw [hv, trimStart, List.takeWhile_append_dropWhile]
      refine ⟨s.takeWhile isBlank, b :: v.takeWhile isBlank, ?_, List.cons_ne_nil _ _, hblanks s,
        List.forall_mem_cons.2 ⟨hb, hblanks v⟩, ?_⟩
      · cases s with
        | nil => cases hhead
        | cons d ds =>
          have hd : isBlank d = true := hhead
          rw [List.takeWhile_cons_of_pos hd]
          exact List.cons_ne_nil _ _
      · rw [List.cons_append, ← hgap, ← hstart, trimStart, List.takeWhile_append_dropWhile]
    · cases h
  · rintro ⟨lead, gap, hlead, hgap, hleads, hgaps, rfl⟩
    obtain ⟨hne, hrest⟩ := isNameRest_of_clauseWord hword
    obtain ⟨a, as, hletters⟩ := List.exists_cons_of_ne_nil hne
    have ha : isBlank a = false :=
      isBlank_of_isNameRest (.inl (hrest a (by rw [hletters]; exact List.mem_cons_self)))
    have hhead : (lead ++ (word.toList ++ (gap ++ c :: r))).head?.any isBlank = true := by
      obtain ⟨d, ds, rfl⟩ := List.exists_cons_of_ne_nil hlead
      exact hleads d List.mem_cons_self
    have hstart : trimStart (lead ++ (word.toList ++ (gap ++ c :: r))) =
        word.toList ++ (gap ++ c :: r) := by
      rw [trimStart, List.dropWhile_append_of_pos hleads, hletters, List.cons_append]
      exact trimStart_of_head ha _
    rw [if_pos hhead, hstart]
    obtain ⟨b, bs, rfl⟩ := List.exists_cons_of_ne_nil hgap
    rw [List.forall_mem_cons] at hgaps
    refine afterWord?_eq_some.2 ⟨b, bs ++ c :: r, rfl, hgaps.1, ?_⟩
    rw [trimStart, List.dropWhile_append_of_pos hgaps.2]
    exact (trimStart_of_head hc r).symm

/-- **A word with a name behind it does not reach over what stops it.** -/
theorem afterSpacedWord?_append_stops (hword : word ∈ clauseWords) (ht : Stops t)
    (hc : isNameRest c = true ∨ c = '.') :
    afterSpacedWord? word (s ++ t) = some (c :: r) ↔
      ∃ r', r = r' ++ t ∧ afterSpacedWord? word s = some (c :: r') := by
  have hblank := isBlank_of_isNameRest hc
  constructor
  · intro h
    obtain ⟨lead, gap, hlead, hgap, hleads, hgaps, hsplit⟩ :=
      (afterSpacedWord?_eq_some hword hblank).1 h
    have hfront : ∀ d ∈ lead ++ (word.toList ++ gap), isBlank d = true ∨ isNameRest d = true := by
      simp only [List.mem_append]
      rintro d (hd | hd | hd)
      · exact .inl (hleads d hd)
      · exact .inr ((isNameRest_of_clauseWord hword).2 d hd)
      · exact .inl (hgaps d hd)
    have hwhole : s ++ t = (lead ++ (word.toList ++ gap)) ++ c :: r := by
      rw [hsplit]
      simp
    rcases List.append_eq_append_iff.1 hwhole with ⟨more, hmore, rfl⟩ | ⟨more, hs, hmore⟩
    · -- the text that stops it would start among the blanks and the word
      exact (ht.not_append (fun d hd => hfront d (by rw [hmore]; simp [hd])) hc).elim
    · cases more with
      | nil =>
        rw [List.nil_append] at hmore
        exact ((hmore ▸ ht : Stops ([] ++ c :: r)).not_append (by simp) hc).elim
      | cons d ds =>
        obtain ⟨rfl, rfl⟩ := List.cons.inj hmore
        refine ⟨ds, rfl, (afterSpacedWord?_eq_some hword hblank).2
          ⟨lead, gap, hlead, hgap, hleads, hgaps, ?_⟩⟩
        rw [hs]
        simp
  · rintro ⟨r', rfl, h⟩
    exact afterSpacedWord?_append (List.cons_ne_nil _ _) h t

/-- A word in front of what stops it is there already. -/
theorem append_of_stops {word : List Char} (hword : ∀ c ∈ word, isNameRest c = true) (ht : Stops t)
    (h : s ++ t = word ++ r) : ∃ r', s = word ++ r' ∧ r = r' ++ t := by
  rcases List.append_eq_append_iff.1 h with ⟨more, rfl, ht'⟩ | ⟨more, rfl, hr⟩
  · cases more with
    | nil => exact ⟨[], by simp, by simpa using ht'.symm⟩
    | cons c cs =>
      rw [ht'] at ht
      have hc : isNameRest c = true := hword c (by simp)
      exact (Bool.false_ne_true ((ht.head? c rfl).1.symm.trans hc)).elim
  · exact ⟨more, rfl, hr⟩

theorem atWordEnd_append (ht : Stops t) (s : List Char) : atWordEnd (s ++ t) = atWordEnd s := by
  cases s with
  | cons c cs => rfl
  | nil =>
    cases t with
    | nil => rfl
    | cons c cs =>
      have hc := (ht.head? c rfl).1
      rw [isNameRest, Bool.or_eq_false_iff] at hc
      simp [atWordEnd, hc.1]

theorem asConst?_eq_some {n : Nat} :
    asConst? s = some n ↔ ∃ r, afterSpacedWord? "as" s = some ("const".toList ++ r) ∧
      atWordEnd r = true ∧ n = s.length - r.length := by
  rw [asConst?]
  constructor
  · intro h
    obtain ⟨r, hr, hafter⟩ := Option.bind_eq_some_iff.1 h
    obtain ⟨r', hr', hlength⟩ := Option.bind_eq_some_iff.1 hafter
    have hconst : "const".toList ++ r' = r := List.isPrefixOf?_eq_some_iff_append_eq.1 hr'
    split at hlength
    · rename_i hend
      exact ⟨r', by rw [hr, hconst], hend, (Option.some.inj hlength).symm⟩
    · cases hlength
  · rintro ⟨r, hr, hend, rfl⟩
    have hafter : afterLiteral? "const" ("const".toList ++ r) = some r :=
      List.isPrefixOf?_eq_some_iff_append_eq.2 rfl
    rw [hr, Option.bind_eq_bind, Option.bind_some, hafter, Option.bind_some, if_pos hend]

/-- **A frozen value is found in front of what stops it.** -/
theorem asConst?_append (ht : Stops t) (s : List Char) : asConst? (s ++ t) = asConst? s := by
  have hword : "as" ∈ clauseWords := by simp [clauseWords]
  have hletters : "const".toList = 'c' :: "onst".toList := rfl
  have hlength : ∀ r : List Char, (s ++ t).length - (r ++ t).length = s.length - r.length := by
    intro r
    rw [List.length_append, List.length_append, Nat.add_sub_add_right]
  refine Option.ext fun n => ?_
  rw [asConst?_eq_some, asConst?_eq_some]
  constructor
  · rintro ⟨r, hr, hend, rfl⟩
    rw [hletters, List.cons_append] at hr
    obtain ⟨r', hsplit, hr'⟩ := (afterSpacedWord?_append_stops hword ht (.inl rfl)).1 hr
    have honst : ∀ c ∈ "onst".toList, isNameRest c = true := List.all_eq_true.1 (by decide +kernel)
    obtain ⟨r'', rfl, rfl⟩ := append_of_stops honst ht hsplit.symm
    rw [atWordEnd_append ht] at hend
    exact ⟨r'', hr', hend, hlength r''⟩
  · rintro ⟨r, hr, hend, rfl⟩
    refine ⟨r ++ t, ?_, by rw [atWordEnd_append ht, hend], (hlength r).symm⟩
    exact afterSpacedWord?_append (List.cons_ne_nil _ _) hr t

/-- Whether a character belongs to the name of a type. -/
def isTypeName (c : Char) : Bool :=
  isNameRest c || c == '.'

/-- What follows a type at the start of a text. -/
def afterType (s : List Char) : List Char :=
  afterListMarks (afterTypeArguments (s.drop (s.takeWhile isTypeName).length))

theorem satisfies?_eq_some {n : Nat} :
    satisfies? s = some n ↔ ∃ c r, afterSpacedWord? "satisfies" s = some (c :: r) ∧
      isTypeName c = true ∧ n = s.length - (afterType (c :: r)).length := by
  have hname : ∀ r : List Char, (r.takeWhile isTypeName).isEmpty = false ↔
      ∃ c r', r = c :: r' ∧ isTypeName c = true := by
    intro r
    cases r with
    | nil => simp
    | cons c r => cases hc : isTypeName c <;> simp [hc]
  rw [satisfies?]
  change ((afterSpacedWord? "satisfies" s).bind fun r =>
    if (r.takeWhile isTypeName).isEmpty then none
    else some (s.length - (afterType r).length)) = some n ↔ _
  constructor
  · intro h
    obtain ⟨r, hr, hlength⟩ := Option.bind_eq_some_iff.1 h
    split at hlength
    · cases hlength
    · rename_i hne
      obtain ⟨c, r', rfl, hc⟩ := (hname r).1 (Bool.eq_false_of_not_eq_true hne)
      exact ⟨c, r', hr, hc, (Option.some.inj hlength).symm⟩
  · rintro ⟨c, r, hr, hc, rfl⟩
    rw [hr, Option.bind_some, (hname (c :: r)).2 ⟨c, r, rfl, hc⟩, if_neg Bool.false_ne_true]

theorem isTypeName_iff : isTypeName c = true ↔ isNameRest c = true ∨ c = '.' := by
  rw [isTypeName, Bool.or_eq_true, beq_iff_eq]

/-- **A checked value is found in front of what stops it**; the clause may be longer there. -/
theorem isSome_satisfies?_append_stops (ht : Stops t) (s : List Char) :
    (satisfies? (s ++ t)).isSome = (satisfies? s).isSome := by
  have hword : "satisfies" ∈ clauseWords := by simp [clauseWords]
  have hsome : ∀ s : List Char, (satisfies? s).isSome = true ↔
      ∃ c r, afterSpacedWord? "satisfies" s = some (c :: r) ∧ isTypeName c = true := by
    intro s
    rw [Option.isSome_iff_exists]
    simp only [satisfies?_eq_some]
    constructor
    · rintro ⟨n, c, r, hr, hc, -⟩
      exact ⟨c, r, hr, hc⟩
    · rintro ⟨c, r, hr, hc⟩
      exact ⟨_, c, r, hr, hc, rfl⟩
  rw [Bool.eq_iff_iff, hsome, hsome]
  constructor
  · rintro ⟨c, r, hr, hc⟩
    obtain ⟨r', -, hr'⟩ := (afterSpacedWord?_append_stops hword ht (isTypeName_iff.1 hc)).1 hr
    exact ⟨c, r', hr', hc⟩
  · rintro ⟨c, r, hr, hc⟩
    exact ⟨c, r ++ t, afterSpacedWord?_append (List.cons_ne_nil _ _) hr t, hc⟩

/-! ## An equals sign behind it -/

section

variable (t : List Char)

theorem stops_equals : Stops (' ' :: '=' :: t) :=
  stops_blank rfl (stops_cons rfl (by decide +kernel) (by decide) t)

/-- A scan that stops at the first character behind a text takes what it takes of the text. -/
theorem takeWhile_append_of_head {p : Char → Bool} (hc : p c = false) (s t : List Char) :
    (s ++ c :: t).takeWhile p = s.takeWhile p := by
  rw [List.takeWhile_append, List.takeWhile_cons_of_neg (by simp [hc]), List.append_nil]
  split
  · rename_i hall
    have hstart : s.takeWhile p <+: s := List.takeWhile_prefix p
    exact (hstart.eq_of_length hall).symm
  · rfl

theorem afterTypeArguments_append (s : List Char) :
    afterTypeArguments (s ++ ' ' :: '=' :: t) = afterTypeArguments s ++ ' ' :: '=' :: t := by
  fun_cases afterTypeArguments s with
  | case1 cs inner rest hend =>
    rw [drop_takeWhile_length] at hend
    rw [List.cons_append, afterTypeArguments, drop_takeWhile_length, List.dropWhile_append, hend]
    rfl
  | case2 cs inner hopen =>
    rw [drop_takeWhile_length] at hopen
    rw [List.cons_append, afterTypeArguments, drop_takeWhile_length, List.dropWhile_append]
    -- arguments that are not closed in front of the equals sign are none
    split
    · rename_i rest hend
      split at hend
      · cases hend
      · rename_i hne
        generalize List.dropWhile _ cs = found at hne hend hopen
        cases found with
        | nil => exact absurd rfl hne
        | cons c more =>
          cases hend
          exact (hopen more rfl).elim
    · rfl
  | case3 =>
    rename_i hnone
    cases s with
    | nil => rfl
    | cons c cs =>
      rw [List.cons_append, afterTypeArguments]
      rintro rest heq
      exact hnone cs (by rw [(List.cons.inj heq).1])

theorem afterListMarks_append (s : List Char) :
    afterListMarks (s ++ ' ' :: '=' :: t) = afterListMarks s ++ ' ' :: '=' :: t := by
  fun_induction afterListMarks s with
  | case1 cs ih => exact ih
  | case2 s hnone =>
    rw [afterListMarks]
    intro rest heq
    rcases s with _ | ⟨c, _ | ⟨d, ds⟩⟩
    · cases heq
    · cases heq
    · cases heq
      exact hnone ds rfl

theorem afterType_append (s : List Char) :
    afterType (s ++ ' ' :: '=' :: t) = afterType s ++ ' ' :: '=' :: t := by
  have hname : (s ++ ' ' :: '=' :: t).takeWhile isTypeName = s.takeWhile isTypeName :=
    takeWhile_append_of_head (by decide +kernel) s _
  have hstart : s.takeWhile isTypeName <+: s := List.takeWhile_prefix _
  rw [afterType, hname, List.drop_append_of_le_length hstart.length_le, afterTypeArguments_append,
    afterListMarks_append, afterType]

/-- **The type behind which an equals sign stands ends in front of it.** -/
theorem satisfies?_append_equals (s : List Char) :
    satisfies? (s ++ ' ' :: '=' :: t) = satisfies? s := by
  have hword : "satisfies" ∈ clauseWords := by simp [clauseWords]
  have hlength : ∀ c r, (s ++ ' ' :: '=' :: t).length -
      (afterType (c :: (r ++ ' ' :: '=' :: t))).length =
        s.length - (afterType (c :: r)).length := by
    intro c r
    rw [← List.cons_append, afterType_append, List.length_append, List.length_append,
      Nat.add_sub_add_right]
  refine Option.ext fun n => ?_
  rw [satisfies?_eq_some, satisfies?_eq_some]
  constructor
  · rintro ⟨c, r, hr, hc, rfl⟩
    obtain ⟨r', rfl, hr'⟩ :=
      (afterSpacedWord?_append_stops hword (stops_equals t) (isTypeName_iff.1 hc)).1 hr
    exact ⟨c, r', hr', hc, hlength c r'⟩
  · rintro ⟨c, r, hr, hc, rfl⟩
    exact ⟨c, _, afterSpacedWord?_append (List.cons_ne_nil _ _) hr _, hc, (hlength c r).symm⟩

end

/-! ## Erasing clauses -/

/-- What is erased in front of a text does not depend on the text, if the clauses found there do
not. -/
theorem eraseFrom_append {length? : List Char → Option Nat}
    (hle : ∀ u n, length? u = some n → n ≤ u.length)
    (hlocal : ∀ u, u ≠ [] → u <:+ s → length? (u ++ t) = length? u) {skip : Nat}
    (hskip : skip ≤ s.length) :
    eraseFrom length? skip (s ++ t) = eraseFrom length? skip s ++ eraseFrom length? 0 t := by
  induction s generalizing skip with
  | nil =>
    obtain rfl : skip = 0 := Nat.le_zero.1 hskip
    cases t <;> rfl
  | cons c cs ih =>
    have hcs : ∀ u, u ≠ [] → u <:+ cs → length? (u ++ t) = length? u := fun u hne hu =>
      hlocal u hne (hu.trans (List.suffix_cons c cs))
    cases skip with
    | succ skip => exact ih hcs (Nat.le_of_succ_le_succ hskip)
    | zero =>
      have hhead := hlocal (c :: cs) (List.cons_ne_nil _ _) List.suffix_rfl
      rw [List.cons_append] at hhead
      rw [List.cons_append, eraseFrom, eraseFrom, hhead]
      cases hfound : length? (c :: cs) with
      | none => exact congrArg (c :: ·) (ih hcs (Nat.zero_le _))
      | some n =>
        have hn := hle _ _ hfound
        rw [List.length_cons] at hn
        exact ih hcs (by omega)

theorem eraseFrom_sublist (length? : List Char → Option Nat) (skip : Nat) (s : List Char) :
    (eraseFrom length? skip s).Sublist s := by
  induction s generalizing skip with
  | nil => cases skip <;> exact List.Sublist.slnil
  | cons c cs ih =>
    cases skip with
    | succ skip => exact (ih skip).cons c
    | zero =>
      rw [eraseFrom]
      split
      · exact (ih _).cons c
      · exact (ih 0).cons_cons c

theorem hasClause_eq_false : hasClause s = false ↔
    ∀ u, u ≠ [] → u <:+ s → asConst? u = none ∧ satisfies? u = none := by
  induction s with
  | nil =>
    refine ⟨fun _ u hne hu => absurd (List.suffix_nil.1 hu) hne, fun _ => rfl⟩
  | cons c cs ih =>
    rw [hasClause, Bool.or_eq_false_iff, Bool.or_eq_false_iff, Option.isSome_eq_false_iff,
      Option.isSome_eq_false_iff, Option.isNone_iff_eq_none, Option.isNone_iff_eq_none, ih]
    constructor
    · rintro ⟨hhead, hcs⟩ u hne hu
      rcases List.suffix_cons_iff.1 hu with rfl | hu
      · exact hhead
      · exact hcs u hne hu
    · intro h
      exact ⟨h _ (List.cons_ne_nil _ _) List.suffix_rfl, fun u hne hu =>
        h u hne (hu.trans (List.suffix_cons c cs))⟩

/-- Whether clauses could start in a text is seen in its parts. -/
theorem hasClause_append_stops (ht : Stops t) (s : List Char) :
    hasClause (s ++ t) = (hasClause s || hasClause t) := by
  induction s with
  | nil => rfl
  | cons c cs ih =>
    rw [List.cons_append, hasClause, ← List.cons_append, asConst?_append ht,
      isSome_satisfies?_append_stops ht, ih, hasClause, Bool.or_assoc (_ || _)]

/-- A name is no clause: nothing can follow the word of a clause there. -/
theorem hasClause_name {x : List Char} (hx : ∀ c ∈ x, isBlank c = false) :
    hasClause (' ' :: x) = false := by
  have hnone : ∀ word ∈ clauseWords, ∀ c r, isBlank c = false →
      afterSpacedWord? word (' ' :: x) ≠ some (c :: r) := by
    intro word hword c r hc h
    obtain ⟨lead, gap, hlead, hgap, -, hgaps, hsplit⟩ := (afterSpacedWord?_eq_some hword hc).1 h
    obtain ⟨d, lead, rfl⟩ := List.exists_cons_of_ne_nil hlead
    obtain ⟨b, gap, rfl⟩ := List.exists_cons_of_ne_nil hgap
    have hb : b ∈ x := by
      rw [(List.cons.inj hsplit).2]
      simp
    exact ne_of_isBlank (hgaps b List.mem_cons_self) (hx b hb) rfl
  have hconst : asConst? (' ' :: x) = none := by
    rw [Option.eq_none_iff_forall_ne_some]
    intro n h
    obtain ⟨r, hr, -⟩ := asConst?_eq_some.1 h
    exact hnone "as" (by simp [clauseWords]) 'c' ("onst".toList ++ r) rfl hr
  have hsatisfies : satisfies? (' ' :: x) = none := by
    rw [Option.eq_none_iff_forall_ne_some]
    intro n h
    obtain ⟨c, r, hr, hc, -⟩ := satisfies?_eq_some.1 h
    exact hnone "satisfies" (by simp [clauseWords]) c r
      (isBlank_of_isNameRest (isTypeName_iff.1 hc)) hr
  have hrest := hasClause_append hx []
  rw [List.append_nil] at hrest
  rw [hasClause, hconst, hsatisfies, hrest]
  rfl

/-- What the two kinds of clauses have in common. -/
structure IsClause (length? : List Char → Option Nat) : Prop where
  start : ∀ c cs, isBlank c = false → length? (c :: cs) = none
  le : ∀ s n, length? s = some n → n ≤ s.length
  free : ∀ s, s ≠ [] → hasClause s = false → ∀ t, Stops t → length? (s ++ t) = none
  equals : ∀ s t, length? (s ++ ' ' :: '=' :: t) = length? s

theorem isClause_asConst? : IsClause asConst? where
  start c cs hc := (clause_eq_none_of_isBlank hc cs).1
  le s n h := by
    obtain ⟨r, -, -, rfl⟩ := asConst?_eq_some.1 h
    exact Nat.sub_le _ _
  free s hne hs t ht := by
    rw [asConst?_append ht]
    exact (hasClause_eq_false.1 hs s hne List.suffix_rfl).1
  equals s t := asConst?_append (stops_equals t) s

theorem isClause_satisfies? : IsClause satisfies? where
  start c cs hc := (clause_eq_none_of_isBlank hc cs).2
  le s n h := by
    obtain ⟨c, r, -, -, rfl⟩ := satisfies?_eq_some.1 h
    exact Nat.sub_le _ _
  free s hne hs t ht := by
    have hnone := (hasClause_eq_false.1 hs s hne List.suffix_rfl).2
    rw [← Option.isNone_iff_eq_none, ← Option.isSome_eq_false_iff,
      isSome_satisfies?_append_stops ht, hnone]
    rfl
  equals s t := satisfies?_append_equals t s

namespace IsClause

variable {length? : List Char → Option Nat} (h : IsClause length?)
include h

/-- Nothing is erased where no clause starts. -/
theorem eraseFrom_free (hs : hasClause s = false) (ht : Stops t) :
    eraseFrom length? 0 (s ++ t) = s ++ eraseFrom length? 0 t := by
  have hnone : ∀ u, u ≠ [] → u <:+ s → ∀ t, Stops t → length? (u ++ t) = none := by
    intro u hne hu
    refine h.free u hne (hasClause_eq_false.2 fun v hv hsuffix => ?_)
    exact hasClause_eq_false.1 hs v hv (hsuffix.trans hu)
  induction s with
  | nil => rfl
  | cons c cs ih =>
    have hcs : hasClause cs = false := by
      rw [hasClause, Bool.or_eq_false_iff] at hs
      exact hs.2
    have hhead := hnone (c :: cs) (List.cons_ne_nil _ _) List.suffix_rfl t ht
    rw [List.cons_append] at hhead
    rw [List.cons_append, eraseFrom, hhead]
    exact congrArg (c :: ·) (ih hcs fun u hne hu => hnone u hne (hu.trans (List.suffix_cons c cs)))

theorem eraseFrom_cons (hc : isBlank c = false) (cs : List Char) :
    eraseFrom length? 0 (c :: cs) = c :: eraseFrom length? 0 cs := by
  rw [eraseFrom, h.start c cs hc]

/-- A text in front of an equals sign is erased by itself. -/
theorem eraseFrom_equals (s t : List Char) :
    eraseFrom length? 0 (s ++ ' ' :: '=' :: t) =
      eraseFrom length? 0 s ++ ' ' :: '=' :: eraseFrom length? 0 t := by
  have hspace : length? ([' '] ++ '=' :: t) = none :=
    h.free [' '] (List.cons_ne_nil _ _) rfl _ (stops_cons rfl (by decide +kernel) (by decide) t)
  rw [eraseFrom_append h.le (fun u _ _ => h.equals u t) (Nat.zero_le _), eraseFrom,
    ← List.singleton_append, hspace]
  exact congrArg (eraseFrom length? 0 s ++ ' ' :: ·) (h.eraseFrom_cons rfl t)

end IsClause

end Script
end Atoll
