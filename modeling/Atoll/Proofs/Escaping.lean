import Atoll.Proofs.Entities
import Atoll.Proofs.Lexer
import Mathlib

/-!
# Text is escaped between its declarations

Text is escaped as content, except for its declarations: comments and document types, which stay as
they are.  One that is not complete is no declaration, and inside of one there is no other.

* `IsDeclaration`, `Leads` — a declaration, and the shortest one that starts at a place.
  `verbatimLength?_cases` says that its length is found.
* `Divided` — a text divided at its declarations, the first one first.
* `Divided.escapeTextFrom_eq` — **text keeps its declarations and is escaped between them.**
* `escaping_laws` — this, and that content and attribute values can be decoded.
-/

set_option autoImplicit false

namespace Atoll
namespace Markup

open Text

variable {lead last rest s v : List Char}

/-! ## Comments and document types -/

/-- What declarations start and end with. -/
inductive Encloses : List Char → List Char → Prop where
  | comment : Encloses "<!--".toList "-->".toList
  | doctype {lead : List Char} (hlead : lead.map Char.toLower = "<!doctype".toList) :
      Encloses lead ['>']

/-- A complete comment or document type, whatever stands inside it. -/
def IsDeclaration (v : List Char) : Prop :=
  ∃ lead body last, Encloses lead last ∧ v = lead ++ (body ++ last)

/-- Whether the text starts with a declaration. -/
def Opens (s : List Char) : Prop :=
  ∃ v, IsDeclaration v ∧ v <+: s

/-- The shortest declaration that the text starts with. -/
structure Leads (v s : List Char) : Prop where
  declaration : IsDeclaration v
  isPrefix : v <+: s
  shortest : ∀ w, IsDeclaration w → w <+: s → v.length ≤ w.length

theorem Leads.opens (h : Leads v s) : Opens s :=
  ⟨v, h.declaration, h.isPrefix⟩

theorem Leads.unique {w : List Char} (hv : Leads v s) (hw : Leads w s) : v = w := by
  have hlength := Nat.le_antisymm (hv.shortest w hw.declaration hw.isPrefix)
    (hw.shortest v hv.declaration hv.isPrefix)
  exact (List.prefix_of_prefix_length_le hv.isPrefix hw.isPrefix hlength.le).eq_of_length hlength

/-- What a text starts with says what ends its declaration. -/
theorem Encloses.unique {lead' last' rest' : List Char} (h : Encloses lead last)
    (h' : Encloses lead' last') (heq : lead ++ rest = lead' ++ rest') :
    lead = lead' ∧ last = last' := by
  have hlower := congrArg (List.map Char.toLower) heq
  rw [List.map_append, List.map_append] at hlower
  cases h with
  | comment =>
    cases h' with
    | comment => exact ⟨rfl, rfl⟩
    | doctype hlead' => simp [hlead'] at hlower
  | doctype hlead =>
    cases h' with
    | comment => simp [hlead] at hlower
    | doctype hlead' =>
      have hlength : lead.length = lead'.length := by
        rw [← List.length_map Char.toLower, hlead, ← hlead', List.length_map]
      exact ⟨(List.append_inj heq hlength).1, rfl⟩

namespace Encloses

variable (h : Encloses lead last)

include h

theorem exists_body {w : List Char} (hw : IsDeclaration w) (hopen : w <+: lead ++ rest) :
    ∃ body, w = lead ++ (body ++ last) ∧ last <+: rest.drop body.length := by
  obtain ⟨lead', body, last', h', rfl⟩ := hw
  obtain ⟨tail, hs⟩ := hopen
  rw [List.append_assoc] at hs
  obtain ⟨rfl, rfl⟩ := h'.unique h hs
  refine ⟨body, rfl, ?_⟩
  rw [← List.append_cancel_left hs, List.append_assoc, List.drop_left]
  exact List.prefix_append _ _

/-- The first place of what ends a declaration is where the shortest one ends. -/
theorem exists_leads {i : Nat} (hi : find? last rest = some i) :
    ∃ v, Leads v (lead ++ rest) ∧ v.length = lead.length + i + last.length := by
  obtain ⟨hle, tail, htail⟩ := find?_spec hi
  have hlength (body : List Char) :
      (lead ++ (body ++ last)).length = lead.length + body.length + last.length := by
    rw [List.length_append, List.length_append, Nat.add_assoc]
  refine ⟨lead ++ (rest.take i ++ last), ⟨⟨_, _, _, h, rfl⟩, ⟨tail, ?_⟩, fun w hw hopen => ?_⟩, ?_⟩
  · rw [List.append_assoc, List.append_assoc, htail, List.take_append_drop]
  · obtain ⟨body, rfl, hend⟩ := h.exists_body hw hopen
    obtain ⟨j, hj, hfind⟩ := exists_find?_le hend
    rw [hi, Option.some_inj] at hfind
    rw [hlength, hlength, List.length_take_of_le hle]
    omega
  · rw [hlength, List.length_take_of_le hle]

theorem not_opens (hnone : find? last rest = none) : ¬Opens (lead ++ rest) := by
  rintro ⟨v, hv, hopen⟩
  obtain ⟨body, -, hend⟩ := h.exists_body hv hopen
  obtain ⟨i, -, hi⟩ := exists_find?_le hend
  rw [hnone] at hi
  cases hi

end Encloses

theorem find?_singleton (c : Char) (s : List Char) :
    find? [c] s = if (s.takeWhile (· != c)).length < s.length
      then some (s.takeWhile (· != c)).length else none := by
  induction s with
  | nil => rfl
  | cons d ds ih =>
    by_cases hd : d = c
    · simp [find?, hd]
    · simp only [find?, List.isPrefixOf, beq_false_of_ne (Ne.symm hd), ih]
      simp [hd, apply_ite]

theorem afterCaseless?_eq_some_iff {word : List Char} :
    afterCaseless? word s = some rest ↔
      ∃ lead, lead.map Char.toLower = word ∧ s = lead ++ rest := by
  induction word generalizing s with
  | nil => simp [afterCaseless?]
  | cons w ws ih =>
    cases s with
    | nil => simp [afterCaseless?]
    | cons c cs =>
      rw [afterCaseless?]
      by_cases hc : (c.toLower == w) = true
      · rw [if_pos hc, ih]
        rw [beq_iff_eq] at hc
        constructor
        · rintro ⟨lead, hlead, rfl⟩
          exact ⟨c :: lead, by rw [List.map_cons, hc, hlead], rfl⟩
        · rintro ⟨lead, hlead, hs⟩
          obtain ⟨d, more, rfl, -, hmore⟩ := List.map_eq_cons_iff.1 hlead
          exact ⟨more, hmore, (List.cons.inj hs).2⟩
      · rw [if_neg hc]
        refine iff_of_false (by simp) ?_
        rintro ⟨lead, hlead, hs⟩
        obtain ⟨d, more, rfl, hd, -⟩ := List.map_eq_cons_iff.1 hlead
        exact hc (beq_iff_eq.2 ((List.cons.inj hs).1 ▸ hd))

/-- **The length of the shortest declaration is found**, if the text starts with one. -/
theorem verbatimLength?_cases (s : List Char) :
    (∃ v, Leads v s ∧ verbatimLength? s = some v.length) ∨ ¬Opens s ∧ verbatimLength? s = none := by
  rw [verbatimLength?]
  cases hcomment : afterLiteral? "<!--" s with
  | some rest =>
    obtain rfl := after?_eq_some hcomment
    dsimp only
    cases hfind : find? "-->".toList rest with
    | some i =>
      obtain ⟨v, hv, hlength⟩ := Encloses.comment.exists_leads hfind
      exact .inl ⟨v, hv, congrArg some hlength.symm⟩
    | none => exact .inr ⟨Encloses.comment.not_opens hfind, rfl⟩
  | none =>
    dsimp only
    cases hdoctype : afterCaseless? "<!doctype".toList s with
    | some rest =>
      obtain ⟨lead, hlead, rfl⟩ := afterCaseless?_eq_some_iff.1 hdoctype
      have hnine : lead.length = 9 := by
        rw [← List.length_map Char.toLower, hlead]
        rfl
      dsimp only
      split
      · rename_i hend
        obtain ⟨v, hv, hlength⟩ :=
          (Encloses.doctype hlead).exists_leads ((find?_singleton '>' rest).trans (if_pos hend))
        exact .inl ⟨v, hv, by rw [hlength, hnine]; rfl⟩
      · rename_i hend
        have hnone := (find?_singleton '>' rest).trans (if_neg hend)
        exact .inr ⟨(Encloses.doctype hlead).not_opens hnone, rfl⟩
    | none =>
      refine .inr ⟨?_, rfl⟩
      rintro ⟨v, ⟨lead, body, last, hencloses, rfl⟩, tail, rfl⟩
      rw [List.append_assoc] at hcomment hdoctype
      cases hencloses with
      | comment =>
        rw [afterLiteral?, after?, List.isPrefixOf?_eq_some_iff_append_eq.2 rfl] at hcomment
        cases hcomment
      | doctype hlead =>
        rw [afterCaseless?_eq_some_iff.2 ⟨_, hlead, rfl⟩] at hdoctype
        cases hdoctype

theorem Leads.verbatimLength?_eq (h : Leads v s) : verbatimLength? s = some v.length := by
  rcases verbatimLength?_cases s with ⟨w, hw, hlength⟩ | ⟨hnot, -⟩
  · rw [hlength, hw.unique h]
  · exact absurd h.opens hnot

theorem Opens.exists_leads (h : Opens s) : ∃ v, Leads v s := by
  rcases verbatimLength?_cases s with ⟨v, hv, -⟩ | ⟨hnot, -⟩
  · exact ⟨v, hv⟩
  · exact absurd h hnot

theorem verbatimLength?_eq_none (h : ¬Opens s) : verbatimLength? s = none := by
  rcases verbatimLength?_cases s with ⟨v, hv, -⟩ | ⟨-, hnone⟩
  · exact absurd hv.opens h
  · exact hnone

theorem eq_of_toLower {c d : Char} (hd : d.isAlpha = false) (h : c.toLower = d) : c = d := by
  subst h
  rw [Char.isAlpha_toLower_eq_isAlpha, Char.isAlpha, Bool.or_eq_false_iff] at hd
  exact (Char.toLower_eq_of_not_isUpper (by rw [hd.1]; decide)).symm

/-- Every declaration starts with `<!`. -/
theorem IsDeclaration.mark_isPrefix (h : IsDeclaration v) : "<!".toList <+: v := by
  obtain ⟨lead, body, last, hencloses, rfl⟩ := h
  cases hencloses with
  | comment => exact ⟨_, rfl⟩
  | doctype hlead =>
    obtain ⟨a, more, rfl, ha, hmore⟩ := List.map_eq_cons_iff.1 hlead
    obtain ⟨b, more, rfl, hb, -⟩ := List.map_eq_cons_iff.1 hmore
    obtain rfl := eq_of_toLower rfl ha
    obtain rfl := eq_of_toLower rfl hb
    exact ⟨_, rfl⟩

/-! ## Text divided at its declarations -/

/-- No declaration starts inside the gap in front of the rest. -/
def Free (gap rest : List Char) : Prop :=
  ∀ b, b <:+ gap → b ≠ [] → ¬Opens (b ++ rest)

variable {gap : List Char}

theorem free_nil (rest : List Char) : Free [] rest :=
  fun _ hb hne => absurd (List.suffix_nil.1 hb) hne

theorem free_cons_iff {c : Char} :
    Free (c :: gap) rest ↔ ¬Opens (c :: (gap ++ rest)) ∧ Free gap rest := by
  constructor
  · intro h
    exact ⟨h _ List.suffix_rfl (List.cons_ne_nil c gap),
      fun b hb hne => h b (hb.trans (List.suffix_cons c gap)) hne⟩
  · rintro ⟨hfirst, hmore⟩ b hb hne
    rcases List.suffix_cons_iff.1 hb with rfl | hb
    · exact hfirst
    · exact hmore b hb hne

/-- A stretch of text: a declaration, or what stands between two of them. -/
inductive Stretch where
  | plain (s : List Char)
  | declaration (s : List Char)

/-- A stretch with everything escaped but declarations. -/
def Stretch.escaped : Stretch → String
  | .plain s => escapeHtml (String.ofList s)
  | .declaration s => String.ofList s

/-- A text divided at its declarations: each one is the first that starts behind the one before, and
the shortest that starts there. -/
inductive Divided : List Char → List Stretch → Prop where
  | last {s : List Char} (h : Free s []) : Divided s [.plain s]
  | next {gap v rest : List Char} {more : List Stretch} (hgap : Free gap (v ++ rest))
      (hv : Leads v (v ++ rest)) (hrest : Divided rest more) :
      Divided (gap ++ (v ++ rest)) (.plain gap :: .declaration v :: more)

/-- The first declaration of a text, if there is one. -/
theorem free_or_exists_leads (s : List Char) :
    Free s [] ∨
      ∃ gap v rest, s = gap ++ (v ++ rest) ∧ Free gap (v ++ rest) ∧ Leads v (v ++ rest) := by
  induction s with
  | nil => exact .inl (free_nil [])
  | cons c cs ih =>
    by_cases hopen : Opens (c :: cs)
    · obtain ⟨v, hv⟩ := hopen.exists_leads
      obtain ⟨rest, hrest⟩ := hv.isPrefix
      rw [← hrest] at hv ⊢
      exact .inr ⟨[], v, rest, rfl, free_nil _, hv⟩
    · rcases ih with hfree | ⟨gap, v, rest, rfl, hfree, hv⟩
      · exact .inl (free_cons_iff.2 ⟨by rwa [List.append_nil], hfree⟩)
      · exact .inr ⟨c :: gap, v, rest, rfl, free_cons_iff.2 ⟨hopen, hfree⟩, hv⟩

/-- Every text can be divided, by induction on its length. -/
theorem exists_divided (s : List Char) : ∃ stretches, Divided s stretches := by
  induction hn : s.length using Nat.strong_induction_on generalizing s with
  | _ n ih =>
    rcases free_or_exists_leads s with hfree | ⟨gap, v, rest, rfl, hfree, hv⟩
    · exact ⟨_, .last hfree⟩
    · have htwo : 2 ≤ v.length := hv.declaration.mark_isPrefix.length_le
      have hless : rest.length < n := by
        rw [List.length_append, List.length_append] at hn
        omega
      obtain ⟨more, hmore⟩ := ih rest.length hless rest rfl
      exact ⟨_, .next hfree hv hmore⟩

/-! ## Escaped text -/

/-- A declaration is passed over as it is. -/
theorem escapeTextFrom_append (v rest : List Char) :
    escapeTextFrom v.length (v ++ rest) = v ++ escapeTextFrom 0 rest := by
  induction v with
  | nil => rfl
  | cons c v ih => rw [List.length_cons, List.cons_append, escapeTextFrom, ih, List.cons_append]

/-- Where the shortest declaration starts, all of it is kept. -/
theorem Leads.escapeTextFrom_eq (h : Leads v (v ++ rest)) :
    escapeTextFrom 0 (v ++ rest) = v ++ escapeTextFrom 0 rest := by
  have hne : v ≠ [] := by
    rintro rfl
    exact absurd h.declaration.mark_isPrefix (by decide)
  obtain ⟨c, cs, rfl⟩ := List.exists_cons_of_ne_nil hne
  rw [List.cons_append, escapeTextFrom, ← List.cons_append, h.verbatimLength?_eq]
  dsimp only
  rw [List.length_cons, Nat.add_sub_cancel, escapeTextFrom_append]
  rfl

/-- What stands in front of the first declaration is escaped, one character after the other. -/
theorem Free.escapeTextFrom_eq (h : Free gap rest) :
    escapeTextFrom 0 (gap ++ rest) = gap.flatMap escapeChar ++ escapeTextFrom 0 rest := by
  induction gap with
  | nil => rfl
  | cons c gap ih =>
    obtain ⟨hfirst, hmore⟩ := free_cons_iff.1 h
    rw [List.cons_append, escapeTextFrom, verbatimLength?_eq_none hfirst]
    dsimp only
    rw [ih hmore, List.flatMap_cons, List.append_assoc]

/-- **Text keeps its declarations and is escaped between them**, by induction on its division. -/
theorem Divided.escapeTextFrom_eq {stretches : List Stretch} (h : Divided s stretches) :
    escapeTextFrom 0 s = stretches.flatMap fun stretch => stretch.escaped.toList := by
  induction h with
  | @last s hfree =>
    simpa [Stretch.escaped, escapeHtml, escapeTextFrom] using hfree.escapeTextFrom_eq
  | next hgap hv _ ih =>
    rw [hgap.escapeTextFrom_eq, hv.escapeTextFrom_eq, ih]
    simp [Stretch.escaped, escapeHtml]

theorem escapeText_of_divided {s : String} {stretches : List Stretch}
    (h : Divided s.toList stretches) :
    escapeText s = String.join (stretches.map Stretch.escaped) := by
  rw [escapeText, h.escapeTextFrom_eq, ← String.toList_inj, String.toList_ofList,
    String.toList_join, List.flatMap_map]

/-- Where `<!` does not occur, there are no declarations. -/
theorem free_of_not_occursIn (h : occursIn "<!".toList s = false) : Free s [] := by
  rintro b hb - ⟨v, hv, hopen⟩
  rw [List.append_nil, List.suffix_iff_eq_drop.1 hb] at hopen
  obtain ⟨i, -, hi⟩ := exists_find?_le (hv.mark_isPrefix.trans hopen)
  rw [occursIn, hi] at h
  cases h

/-- **Escaping can be undone, and declarations are left alone.**  Content and values between either
quote are escaped such that the characters that would end them are gone, and decoding the entities
gives them back.  Every text can be divided at its declarations, and escaping it keeps these and
escapes what stands between them as content; without `<!`, that is all of it. -/
theorem escaping_laws (s : String) :
    IsReversible escapeHtml ['&', '<', '>', '"', '\''] ∧
      IsReversible escapeAttr ['&', '"'] ∧
      IsReversible (escapeBetween '\'') ['&', '\''] ∧
      (∃ stretches, Divided s.toList stretches) ∧
      (∀ stretches, Divided s.toList stretches →
        escapeText s = String.join (stretches.map Stretch.escaped)) ∧
      (occursIn "<!".toList s.toList = false → escapeText s = escapeHtml s) := by
  refine ⟨isReversible_escapeOnly (List.Subset.refl _) (by decide) toList_escapeHtml,
    isReversible_escapeOnly (by decide) (by decide) (toList_escapeBetween_eq '"'),
    isReversible_escapeOnly (by decide) (by decide) (toList_escapeBetween_eq '\''),
    exists_divided s.toList, fun _ => escapeText_of_divided, fun h => ?_⟩
  rw [escapeText_of_divided (.last (free_of_not_occursIn h))]
  simp [Stretch.escaped]

theorem escaping_laws_unmarked :
    occursIn "<!".toList "1 <2 & '!'".toList = false ∧
      escapeText "1 <2 & '!'" = escapeHtml "1 <2 & '!'" := by
  have h : occursIn "<!".toList "1 <2 & '!'".toList = false := by decide
  obtain ⟨-, -, -, -, -, hshort⟩ := escaping_laws "1 <2 & '!'"
  exact ⟨h, hshort h⟩

-- a comment that is not closed is escaped, and so are the marks in front of the next declaration
example :
    escapeText "<b><!--<--><!-- <!DocType x>&" = "&lt;b&gt;<!--<-->&lt;!-- <!DocType x>&amp;" := by
  decide +kernel

end Markup
end Atoll
