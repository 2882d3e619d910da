import Atoll.Proofs.Commas
import Atoll.Script.Statement

/-!
# Where the statements of a script come from

Splitting a script forgets where its statements stood: comments are taken out first, and blanks are
trimmed last.  Here the script is split once more, each character together with its offset, and the
texts are the same.

* `Kept`, `keptFrom` — the characters outside comments with their offsets; `chars_keptFrom` and
  `within_keptFrom` say that they are the uncommented script and that they stand where they say.
* `placedStatements` — the statements as lists of such characters; `texts_placedStatements` says
  that their texts are the statements of the script.
* `Cut`, `cut_placedStatements` — between the statements there is nothing but blanks and semicolons,
  and no statement starts with one.
* `Kept.Whole`, `Kept.Whole.stands` — characters that stand side by side are in the text as they
  are.
-/

set_option autoImplicit false

namespace Atoll
namespace Script

open Text

variable {s reversed : List Char} {i : Nat} {c : Char} {rest : List (Char × Bool)} {n : Nesting}

/-! ## Characters outside comments -/

/-- A character of a script outside its comments, and its offset. -/
structure Kept where
  offset : Nat
  char : Char
  deriving DecidableEq, Repr

variable {ks : List Kept} {sts : List (List Kept)}

namespace Kept

/-- The text of characters. -/
def chars (ks : List Kept) : List Char :=
  ks.map char

/-- The text of characters as a string. -/
def text (ks : List Kept) : String :=
  String.ofList (chars ks)

/-- Where characters start. -/
def origin (ks : List Kept) : Nat :=
  (ks.head?.map offset).getD 0

/-- The characters up to the first line end. -/
def firstLine (ks : List Kept) : List Kept :=
  ks.takeWhile (·.char != '\n')

/-- The characters stand side by side: nothing was taken out between them. -/
def Whole (ks : List Kept) : Prop :=
  ks.IsChain fun a b => b.offset = a.offset + 1

instance (ks : List Kept) : Decidable (Whole ks) :=
  inferInstanceAs (Decidable (ks.IsChain _))

/-- The characters stand one behind the other in a text that starts at an offset. -/
inductive Within : Nat → List Char → List Kept → Prop where
  | done (i : Nat) (s : List Char) : Within i s []
  | skip {i : Nat} {s : List Char} {ks : List Kept} (c : Char) (h : Within (i + 1) s ks) :
      Within i (c :: s) ks
  | keep {i : Nat} {s : List Char} {ks : List Kept} (c : Char) (h : Within (i + 1) s ks) :
      Within i (c :: s) (⟨i, c⟩ :: ks)

theorem Within.le (h : Within i s ks) : ∀ k ∈ ks, i ≤ k.offset := by
  induction h with
  | done => simp
  | skip c _ ih => exact fun k hk => (Nat.le_succ _).trans (ih k hk)
  | keep c _ ih =>
    exact List.forall_mem_cons.2 ⟨Nat.le_refl _, fun k hk => (Nat.le_succ _).trans (ih k hk)⟩

/-- The characters are in the text where they say. -/
theorem Within.getElem? (h : Within i s ks) : ∀ k ∈ ks, s[k.offset - i]? = some k.char := by
  have hstep : ∀ {j : Nat} {c : Char} {cs : List Char} {k : Kept}, j + 1 ≤ k.offset →
      cs[k.offset - (j + 1)]? = some k.char → (c :: cs)[k.offset - j]? = some k.char := by
    intro j c cs k hle hk
    rwa [show k.offset - j = k.offset - (j + 1) + 1 by omega, List.getElem?_cons_succ]
  induction h with
  | done => simp
  | skip c h ih => exact fun k hk => hstep (h.le k hk) (ih k hk)
  | keep c h ih =>
    refine List.forall_mem_cons.2 ⟨?_, fun k hk => hstep (h.le k hk) (ih k hk)⟩
    rw [Nat.sub_self, List.getElem?_cons_zero]

theorem Within.length_le (h : Within i s ks) : ks.length ≤ s.length := by
  induction h with
  | done => exact Nat.zero_le _
  | skip _ _ ih => exact ih.trans (Nat.le_succ _)
  | keep _ _ ih => exact Nat.succ_le_succ ih

theorem Within.pairwise (h : Within i s ks) : ks.Pairwise fun a b => a.offset < b.offset := by
  induction h with
  | done => exact .nil
  | skip _ _ ih => exact ih
  | keep c h ih => exact .cons (fun k hk => h.le k hk) ih

theorem origin_cons (k : Kept) (ks : List Kept) : origin (k :: ks) = k.offset :=
  rfl

/-- Characters side by side are in the text as they are. -/
theorem Whole.stands (h : Whole ks)
    (hs : ∀ k ∈ ks, s[k.offset]? = some k.char) : chars ks <+: s.drop (origin ks) := by
  induction ks with
  | nil => exact List.nil_prefix
  | cons k ks ih =>
    obtain ⟨hk, hs⟩ := List.forall_mem_cons.1 hs
    have hdrop : s.drop k.offset = k.char :: s.drop (k.offset + 1) := by
      obtain ⟨hlt, hget⟩ := List.getElem?_eq_some_iff.1 hk
      rw [List.drop_eq_getElem_cons hlt, hget]
    rw [origin_cons, hdrop, chars, List.map_cons, List.cons_prefix_cons]
    refine ⟨rfl, ?_⟩
    rcases ks with _ | ⟨k', ks⟩
    · exact List.nil_prefix
    · obtain ⟨hnext, htail⟩ := List.isChain_cons_cons.1 h
      rw [← hnext]
      exact ih htail hs

/-- Characters side by side take as many places as they are. -/
theorem Whole.origin_add_length (h : Whole ks) (hne : ks ≠ []) {m : Nat}
    (hm : ∀ k ∈ ks, k.offset < m) : origin ks + ks.length ≤ m := by
  induction ks with
  | nil => exact absurd rfl hne
  | cons k ks ih =>
    obtain ⟨hk, hm⟩ := List.forall_mem_cons.1 hm
    rcases ks with _ | ⟨k', ks⟩
    · exact hk
    · obtain ⟨hnext, htail⟩ := List.isChain_cons_cons.1 h
      have hle := ih htail (List.cons_ne_nil _ _) hm
      rw [origin_cons, hnext, List.length_cons] at hle
      rw [origin_cons, List.length_cons, List.length_cons]
      omega

/-- Characters side by side are numbered from the first one on. -/
theorem Whole.offset_eq (h : Whole ks) {m : Nat} (hm : ∀ k ∈ ks.head?, k.offset = m) (i : Nat)
    (k : Kept) (hk : ks[i]? = some k) : k.offset = m + i := by
  induction ks generalizing m i with
  | nil => simp at hk
  | cons k' ks ih =>
    rcases i with _ | i
    · exact hm k hk
    · obtain ⟨hnext, htail⟩ := List.isChain_cons.1 h
      have hstart : ∀ j ∈ ks.head?, j.offset = m + 1 := fun j hj =>
        (hnext j hj).trans (congrArg (· + 1) (hm k' rfl))
      rw [ih htail hstart i hk]
      omega

/-- Where no character is left out, the characters stand side by side. -/
theorem Within.whole (h : Within i s ks)
    (hlength : ks.length = s.length) : Whole ks ∧ ∀ k ∈ ks.head?, k.offset = i := by
  induction h with
  | done => exact ⟨.nil, by simp⟩
  | skip c h _ =>
    have hle := h.length_le
    rw [hlength, List.length_cons] at hle
    omega
  | keep c h ih =>
    obtain ⟨hwhole, hhead⟩ := ih (Nat.succ.inj hlength)
    exact ⟨List.isChain_cons.2 ⟨hhead, hwhole⟩, by simp⟩

end Kept

/-- The characters of a script outside its comments; the script starts at an offset. -/
def keptFrom : Region → Nat → List Char → List Kept
  | .text .code, i, '/' :: '/' :: cs => keptFrom .lineComment (i + 2) cs
  | .text .code, i, '/' :: '*' :: cs => keptFrom .blockComment (i + 2) cs
  | .text inside, i, c :: cs => ⟨i, c⟩ :: keptFrom (.text (inside.next c)) (i + 1) cs
  | .lineComment, i, '\n' :: cs => ⟨i, '\n'⟩ :: keptFrom (.text .code) (i + 1) cs
  | .lineComment, i, _ :: cs => keptFrom .lineComment (i + 1) cs
  | .blockComment, i, '*' :: '/' :: cs => keptFrom (.text .code) (i + 2) cs
  | .blockComment, i, _ :: cs => keptFrom .blockComment (i + 1) cs
  | _, _, [] => []

/-- The characters are the script without its comments. -/
theorem chars_keptFrom (r : Region) (i : Nat) (s : List Char) :
    Kept.chars (keptFrom r i s) = uncommentFrom r s := by
  fun_induction keptFrom r i s <;> simp_all [Kept.chars, uncommentFrom]

/-- The characters are those of the script, where they say. -/
theorem within_keptFrom (r : Region) (i : Nat) (s : List Char) :
    Kept.Within i s (keptFrom r i s) := by
  fun_induction keptFrom r i s with
  | case1 i cs ih => exact .skip _ (.skip _ ih)
  | case2 i cs ih => exact .skip _ (.skip _ ih)
  | case3 inside i c cs _ _ ih => exact .keep _ ih
  | case4 i cs ih => exact .keep _ ih
  | case5 i c cs _ ih => exact .skip _ ih
  | case6 i cs ih => exact .skip _ (.skip _ ih)
  | case7 i c cs _ ih => exact .skip _ ih
  | case8 => exact .done _ _

/-! ## Statements -/

/-- The characters without blanks at either end. -/
def trimKept (ks : List Kept) : List Kept :=
  (ks.dropWhile fun k => isBlank k.char).rdropWhile fun k => isBlank k.char

/-- The statement in front of others, unless it is blank. -/
def addKept (reversed : List Kept) (more : List (List Kept)) : List (List Kept) :=
  let statement := trimKept reversed.reverse
  if statement.isEmpty then more else statement :: more

/-- Whether a statement ends at a character outside brackets and quotes.  `reversed` are the
characters of the statement, the last one first, and `rest` is the marked rest of the script. -/
def endsStatement (reversed : List Char) (c : Char) (rest : List (Char × Bool)) : Bool :=
  c == ';' || (c == '\n' && isFinished reversed && !goesOn rest)

/-- The statements of a script behind the characters read so far, the last one first. -/
def cutKept (reversed : List Kept) (n : Nesting) : List Kept → List (List Kept)
  | [] => addKept reversed []
  | k :: rest =>
    if n.atTop k.char &&
        endsStatement (Kept.chars reversed) k.char (marked (n.next k.char) (Kept.chars rest)) then
      addKept reversed (cutKept [] (n.next k.char) rest)
    else cutKept (k :: reversed) (n.next k.char) rest

/-- The statements of a script that starts at an offset. -/
def placedStatements (start : Nat) (code : List Char) : List (List Kept) :=
  cutKept [] .outermost (keptFrom (.text .code) start code)

theorem chars_trimKept (ks : List Kept) : Kept.chars (trimKept ks) = trim (Kept.chars ks) := by
  simp only [trimKept, trim, trimStart, trimEnd, Kept.chars, List.rdropWhile, List.dropWhile_map,
    ← List.map_reverse]
  rfl

theorem chars_addKept (reversed : List Kept) (more : List (List Kept)) :
    (addKept reversed more).map Kept.chars =
      addStatement (Kept.chars reversed) (more.map Kept.chars) := by
  have hreverse : Kept.chars reversed.reverse = (Kept.chars reversed).reverse := List.map_reverse
  rw [addKept, addStatement, ← hreverse, ← chars_trimKept]
  have hempty : (Kept.chars (trimKept reversed.reverse)).isEmpty =
      (trimKept reversed.reverse).isEmpty := List.isEmpty_map
  simp only [hempty]
  split <;> rfl

theorem cutStatements_cons (reversed : List Char) (c : Char) (top : Bool)
    (rest : List (Char × Bool)) : cutStatements reversed ((c, top) :: rest) =
      if top && endsStatement reversed c rest then addStatement reversed (cutStatements [] rest)
      else cutStatements (c :: reversed) rest :=
  rfl

theorem chars_cutKept (reversed : List Kept) (n : Nesting) (ks : List Kept) :
    (cutKept reversed n ks).map Kept.chars =
      cutStatements (Kept.chars reversed) (marked n (Kept.chars ks)) := by
  induction ks generalizing reversed n with
  | nil => exact chars_addKept reversed []
  | cons k rest ih =>
    have hmarked : marked n (Kept.chars (k :: rest)) =
        (k.char, n.atTop k.char) :: marked (n.next k.char) (Kept.chars rest) := rfl
    rw [cutKept, hmarked, cutStatements_cons]
    split
    · rw [chars_addKept, ih]
      rfl
    · exact ih (k :: reversed) _

/-- **The texts of the placed statements are the statements of the script.** -/
theorem texts_placedStatements (start : Nat) (code : String) :
    (placedStatements start code.toList).map Kept.text = statements code := by
  rw [statements, uncomment, topLevel, ← chars_keptFrom _ start]
  have h := chars_cutKept [] .outermost (keptFrom (.text .code) start code.toList)
  rw [show Kept.chars [] = [] from rfl] at h
  rw [← h, List.map_map]
  rfl

/-! ## Gaps -/

/-- The characters that stand between statements. -/
def isGap (c : Char) : Bool :=
  isBlank c || c == ';'

/-- The first character is one of a statement. -/
def Kept.Starts (ks : List Kept) : Prop :=
  ∃ k ∈ ks.head?, isGap k.char = false

theorem Kept.Starts.ne_nil (h : Starts ks) : ks ≠ [] := by
  rintro rfl
  obtain ⟨k, hk, -⟩ := h
  simp at hk

/-- Characters are cut in statements with gaps between them. -/
inductive Cut : List Kept → List (List Kept) → Prop where
  | done {gap : List Kept} (hgap : ∀ k ∈ gap, isGap k.char = true) : Cut gap []
  | more {gap statement rest : List Kept} {sts : List (List Kept)}
      (hgap : ∀ k ∈ gap, isGap k.char = true) (hstarts : Kept.Starts statement)
      (h : Cut rest sts) : Cut (gap ++ (statement ++ rest)) (statement :: sts)

namespace Cut

theorem lead {gap : List Kept} (h : Cut ks sts)
    (hgap : ∀ k ∈ gap, isGap k.char = true) : Cut (gap ++ ks) sts := by
  cases h with
  | done hks => exact .done (List.forall_mem_append.2 ⟨hgap, hks⟩)
  | more hmore hstarts h =>
    rw [← List.append_assoc]
    exact .more (List.forall_mem_append.2 ⟨hgap, hmore⟩) hstarts h

theorem starts (h : Cut ks sts) : ∀ st ∈ sts, Kept.Starts st := by
  induction h with
  | done => simp
  | more _ hstarts _ ih => exact List.forall_mem_cons.2 ⟨hstarts, ih⟩

/-- The statements are taken in the order of their characters. -/
theorem sublist (h : Cut ks sts) : sts.flatten.Sublist ks := by
  induction h with
  | done => exact List.nil_sublist _
  | more _ _ _ ih =>
    rw [List.flatten_cons]
    exact (List.Sublist.append_left ih _).trans (List.sublist_append_right _ _)

end Cut

theorem next_of_isBlank (h : isBlank c = true) : Nesting.outermost.next c = .outermost := by
  have hc : isOrdinary c = true := isOrdinary_of rfl h
  simp only [isOrdinary, Bool.not_eq_true', Bool.or_eq_false_iff] at hc
  simp [Nesting.outermost, Nesting.next, Inside.next, hc]

theorem eq_of_endsStatement (h : endsStatement reversed c rest = true) : c = ';' ∨ c = '\n' := by
  rw [endsStatement, Bool.or_eq_true, Bool.and_eq_true, Bool.and_eq_true] at h
  rcases h with h | ⟨⟨h, -⟩, -⟩
  · exact .inl (eq_of_beq h)
  · exact .inr (eq_of_beq h)

/-- Behind the end of a statement the reader stands outside everything. -/
theorem next_of_endsStatement (htop : n.atTop c = true)
    (h : endsStatement reversed c rest = true) : n.next c = .outermost := by
  have hc := eq_of_endsStatement h
  obtain ⟨depth, inside⟩ := n
  obtain ⟨hdepth, hinside⟩ := Bool.and_eq_true_iff.1 htop
  have hdepth : depth = 0 := eq_of_beq hdepth
  subst hdepth
  cases inside with
  | code => rcases hc with rfl | rfl <;> rfl
  | escaped quote => simp at hinside
  | quoted quote =>
    obtain ⟨hline, hquote⟩ := Bool.and_eq_true_iff.1 hinside
    rw [eq_of_beq hline]
    simp_all [Nesting.next, Nesting.outermost, Inside.next, Inside.breaksOff]

/-- What the reader of statements knows about the characters since the last cut: they are blank and
it stands outside everything, or the first of them that is not blank starts a statement. -/
inductive Pending (n : Nesting) : List Kept → Prop where
  | blank {ks : List Kept} (hn : n = .outermost) (h : ∀ k ∈ ks, isBlank k.char = true) :
      Pending n ks
  | started {lead : List Kept} {k : Kept} {ks : List Kept}
      (hlead : ∀ j ∈ lead, isBlank j.char = true) (hk : isGap k.char = false) :
      Pending n (lead ++ k :: ks)

/-- A character that does not end the statement keeps what the reader knows. -/
theorem Pending.step {k : Kept} (h : Pending n ks)
    (hgo : (n.atTop k.char && endsStatement reversed k.char rest) = false) :
    Pending (n.next k.char) (ks ++ [k]) := by
  cases h with
  | started hlead hk =>
    rw [List.append_assoc, List.cons_append]
    exact .started hlead hk
  | blank hn hblank =>
    subst hn
    by_cases hk : isBlank k.char = true
    · exact .blank (next_of_isBlank hk) (List.forall_mem_append.2 ⟨hblank, by simpa using hk⟩)
    · refine .started hblank ?_
      -- a semicolon would have ended the statement here
      have hne : k.char ≠ ';' := by
        intro hsemi
        rw [hsemi, show Nesting.outermost.atTop ';' = true from rfl, endsStatement] at hgo
        simp at hgo
      simp [isGap, hk, hne]

theorem isBlank_of_isGap (h : isGap c = false) : isBlank c = false :=
  (Bool.or_eq_false_iff.1 h).1

/-- Trimming takes away the blanks around the first and the last character that is not blank. -/
theorem trimKept_started {lead : List Kept} (hlead : ∀ j ∈ lead, isBlank j.char = true) {k : Kept}
    (hk : isBlank k.char = false) (ks : List Kept) :
    ∃ trail, (∀ j ∈ trail, isBlank j.char = true) ∧
      lead ++ k :: ks = lead ++ (trimKept (lead ++ k :: ks) ++ trail) ∧
      (trimKept (lead ++ k :: ks)).head? = some k := by
  have hnot : ¬isBlank k.char = true := by simp [hk]
  have htrim : trimKept (lead ++ k :: ks) = (k :: ks).rdropWhile fun k => isBlank k.char := by
    rw [trimKept, List.dropWhile_append_of_pos hlead]
    exact congrArg _ (List.dropWhile_cons_of_neg hnot)
  have hsplit : (k :: ks).rdropWhile (fun k => isBlank k.char) ++
      (k :: ks).rtakeWhile (fun k => isBlank k.char) = k :: ks :=
    List.rdropWhile_append_rtakeWhile
  have htrail : ∀ j ∈ (k :: ks).rtakeWhile (fun k => isBlank k.char), isBlank j.char = true := by
    intro j hj
    exact List.all_eq_true.1 List.all_takeWhile j (List.mem_reverse.1 hj)
  refine ⟨_, htrail, by rw [htrim, hsplit], ?_⟩
  rw [htrim]
  rcases hst : (k :: ks).rdropWhile fun k => isBlank k.char with _ | ⟨k', statement⟩
  · exact absurd (List.rdropWhile_eq_nil_iff.1 hst k List.mem_cons_self) hnot
  · rw [hst, List.cons_append, List.cons.injEq] at hsplit
    rw [hst, hsplit.1, List.head?_cons]

/-- What is pending becomes a statement with blanks around it, unless it is blank. -/
theorem Pending.cut {reversed rest : List Kept} (h : Pending n reversed.reverse)
    (hrest : Cut rest sts) : Cut (reversed.reverse ++ rest) (addKept reversed sts) := by
  have hgap : ∀ {ks : List Kept}, (∀ k ∈ ks, isBlank k.char = true) →
      ∀ k ∈ ks, isGap k.char = true := fun hks k hk => by rw [isGap, hks k hk, Bool.true_or]
  rw [addKept]
  generalize reversed.reverse = ks at h
  cases h with
  | blank _ hblank =>
    have htrim : trimKept ks = [] := by
      rw [trimKept, List.dropWhile_eq_nil_iff.2 hblank, List.rdropWhile_nil]
    simp only [htrim, List.isEmpty_nil, if_true]
    exact hrest.lead (hgap hblank)
  | @started lead k ks hlead hk =>
    obtain ⟨trail, htrail, hsplit, hhead⟩ := trimKept_started hlead (isBlank_of_isGap hk) ks
    generalize trimKept (lead ++ k :: ks) = statement at hsplit hhead
    have hstarts : Kept.Starts statement := ⟨k, hhead, hk⟩
    have hne : statement.isEmpty = false := by simpa using hstarts.ne_nil
    simp only [hne, Bool.false_eq_true, if_false]
    rw [hsplit, List.append_assoc, List.append_assoc]
    exact .more (hgap hlead) hstarts (hrest.lead (hgap htrail))

theorem cut_cutKept (reversed : List Kept) (n : Nesting) (ks : List Kept)
    (h : Pending n reversed.reverse) : Cut (reversed.reverse ++ ks) (cutKept reversed n ks) := by
  induction ks generalizing reversed n with
  | nil => exact h.cut (.done (by simp))
  | cons k rest ih =>
    rw [cutKept]
    split
    · rename_i hends
      obtain ⟨htop, hends⟩ := Bool.and_eq_true_iff.1 hends
      have hgap : isGap k.char = true := by
        rcases eq_of_endsStatement hends with h | h
        · rw [h]
          decide
        · rw [h]
          decide
      have hmore := ih [] (n.next k.char) (.blank (next_of_endsStatement htop hends) (by simp))
      have hlead : Cut ([k] ++ rest) (cutKept [] (n.next k.char) rest) :=
        hmore.lead (by simpa using hgap)
      exact h.cut hlead
    · rename_i hgo
      have hstep := h.step (Bool.not_eq_true _ ▸ hgo)
      have hmore := ih (k :: reversed) (n.next k.char) (by simpa using hstep)
      simpa using hmore

/-- **Between the statements of a script there are only blanks, semicolons and comments.** -/
theorem cut_placedStatements (start : Nat) (code : List Char) :
    Cut (keptFrom (.text .code) start code) (placedStatements start code) :=
  cut_cutKept [] .outermost _ (.blank rfl (by simp))

end Script
end Atoll
