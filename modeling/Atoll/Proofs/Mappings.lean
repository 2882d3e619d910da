import Atoll.Proofs.Cleanup
import Atoll.SourceMap
import Mathlib.Tactic.Ring

/-!
# Source maps are read back as they were recorded

`SourceMap.encode` writes the mappings of generated lines as differences: the source line and column
to those of the mapping before, wherever that was, the generated column to the beginning of its
line.  `SourceMap.decode` adds the differences up again.

* `decodeFrom_encodeVlq` — an integer of any size and sign is read back, whatever follows it.
* `encodeVlq_prefixCode` — so integers need nothing between them: each text says where it ends.
* `Text.cutWhere_intercalate` — pieces with a mark between them are found again by cutting at it.
* `decodeGroups_groupsFrom` — **the differences add up**: the two running places agree in front of
  every line.
* `decode_intercalate` — groups are decoded one after the other.
* `decode_encode` — hence a source map decodes to the mappings that it was made from.
-/

set_option autoImplicit false

namespace Atoll

/-! ## Pieces with a mark between them -/

namespace Text

variable {p : Char → Bool}

/-- A text without cuts is one piece. -/
theorem cutWhere_eq_singleton {s : List Char} (h : ∀ c ∈ s, p c = false) : cutWhere p s = [s] := by
  induction s with
  | nil => rfl
  | cons c cs ih =>
    rw [List.forall_mem_cons] at h
    exact cutWhere_cons_of_not h.1 (ih h.2)

/-- A piece in front of a cut. -/
theorem cutWhere_append_cons {s : List Char} (h : ∀ c ∈ s, p c = false) {mark : Char}
    (hmark : p mark = true) (rest : List Char) :
    cutWhere p (s ++ mark :: rest) = s :: cutWhere p rest := by
  rw [cutWhere_append, cutWhere_eq_singleton h]
  induction s with
  | nil => simp [cutWhere_cons_of_cut rest hmark]
  | cons c cs ih =>
    rw [List.forall_mem_cons] at h
    simpa using cutWhere_cons_of_not h.1 (by simpa using ih h.2)

/-- **Pieces with a mark between them are found again.**  Of no pieces at all there is left an empty
one. -/
theorem cutWhere_intercalate {mark : Char} (hmark : p mark = true) {pieces : List (List Char)}
    (h : ∀ s ∈ pieces, ∀ c ∈ s, p c = false) :
    cutWhere p ([mark].intercalate pieces) = if pieces.isEmpty then [[]] else pieces := by
  induction pieces with
  | nil => rfl
  | cons s pieces ih =>
    rw [List.forall_mem_cons] at h
    cases pieces with
    | nil => simpa using cutWhere_eq_singleton h.1
    | cons t pieces =>
      rw [List.intercalate_cons_cons, List.append_assoc, List.singleton_append,
        cutWhere_append_cons h.1 hmark, ih h.2]
      rfl

/-! ## Digits -/

theorem base64Value?_base64Char {n : Nat} (h : n < 64) : base64Value? (base64Char n) = some n := by
  decide +kernel +revert

theorem base64Char_mem {n : Nat} (h : n < 64) : base64Char n ∈ base64Alphabet := by
  decide +kernel +revert

/-- The marks between segments and between groups are no digits. -/
theorem marks_not_mem_base64Alphabet : ',' ∉ base64Alphabet ∧ ';' ∉ base64Alphabet := by
  decide +kernel

end Text

namespace SourceMap

open Text

theorem vlqDigits_lt {n d : Nat} (h : d ∈ vlqDigits n) : d < 64 := by
  fun_induction vlqDigits n with
  | case1 n hn =>
    rw [List.mem_singleton] at h
    omega
  | case2 n hn ih =>
    rcases List.mem_cons.1 h with rfl | h
    · omega
    · exact ih h

theorem unfoldSign_foldSign (n : Int) : unfoldSign (foldSign n) = n := by
  rw [foldSign, unfoldSign]
  split
  · rw [if_pos (by simp [Nat.add_mod])]
    omega
  · rw [if_neg (by simp)]
    omega

/-- The digits of a number add up to it. -/
theorem decodeFrom_vlqDigits (acc weight n : Nat) (rest : List Char) :
    decodeFrom acc weight ((vlqDigits n).map base64Char ++ rest) =
      (decodeFrom 0 1 rest).map (unfoldSign (acc + n * weight) :: ·) := by
  fun_induction vlqDigits n generalizing acc weight with
  | case1 n hn =>
    rw [List.map_singleton, List.singleton_append, decodeFrom,
      base64Value?_base64Char (by omega)]
    simp [hn, Nat.mod_eq_of_lt hn]
  | case2 n hn ih =>
    have hlow : (32 + n % 32) % 32 = n % 32 := by omega
    have hsum : n % 32 * weight + n / 32 * (weight * 32) = n * weight := by
      calc n % 32 * weight + n / 32 * (weight * 32)
          = (n % 32 + 32 * (n / 32)) * weight := by ring
        _ = n * weight := by rw [Nat.mod_add_div]
    rw [List.map_cons, List.cons_append, decodeFrom, base64Value?_base64Char (by omega)]
    simp only [hlow, ih, Nat.add_assoc, hsum]
    rw [if_neg (by omega)]

/-- **An integer is read back**, whatever follows it. -/
theorem decodeFrom_encodeVlq (n : Int) (rest : List Char) :
    decodeFrom 0 1 ((encodeVlq n).toList ++ rest) = (decodeFrom 0 1 rest).map (n :: ·) := by
  rw [encodeVlq, String.toList_ofList, decodeFrom_vlqDigits, Nat.zero_add, Nat.mul_one,
    unfoldSign_foldSign]

theorem encodeVlq_ne_empty (n : Int) : encodeVlq n ≠ "" := by
  rw [encodeVlq, vlqDigits]
  split <;> simp

/-- The text of an integer is made of digits. -/
theorem subset_encodeVlq (n : Int) : (encodeVlq n).toList ⊆ base64Alphabet := by
  intro c hc
  rw [encodeVlq, String.toList_ofList] at hc
  obtain ⟨d, hd, rfl⟩ := List.mem_map.1 hc
  exact base64Char_mem (vlqDigits_lt hd)

/-- The text of an integer has none of the marks that stand between segments and groups. -/
theorem unmarked_encodeVlq (n : Int) : ∀ c ∈ (encodeVlq n).toList, c ≠ ',' ∧ c ≠ ';' := by
  intro c hc
  have hdigit := subset_encodeVlq n hc
  obtain ⟨hcomma, hsemicolon⟩ := marks_not_mem_base64Alphabet
  exact ⟨ne_of_mem_of_not_mem hdigit hcomma, ne_of_mem_of_not_mem hdigit hsemicolon⟩

/-! ## Integers one behind the other -/

/-- **Integers with nothing between them are read back**, all of them and no others. -/
theorem decodeVlq?_join (ns : List Int) :
    decodeVlq? (String.join (ns.map encodeVlq)) = some ns := by
  rw [decodeVlq?, String.toList_join]
  induction ns with
  | nil => rfl
  | cons n ns ih =>
    rw [List.map_cons, List.flatMap_cons, decodeFrom_encodeVlq, ih]
    rfl

/-- Whether a digit has the bit that says that more digits follow. -/
def continues? (c : Char) : Option Bool :=
  (base64Value? c).map (·.testBit 5)

theorem continues?_base64Char {d : Nat} (h : d < 64) :
    continues? (base64Char d) = some (decide (32 ≤ d)) := by
  rw [continues?, base64Value?_base64Char h, Option.map_some]
  decide +revert

/-- A text whose last digit, and no other, says that it is the last one. -/
def IsTerminated (s : List Char) : Prop :=
  ∃ front last, s = front ++ [last] ∧ (∀ c ∈ front, continues? c = some true) ∧
    continues? last = some false

theorem isTerminated_vlqDigits (n : Nat) : IsTerminated ((vlqDigits n).map base64Char) := by
  fun_induction vlqDigits n with
  | case1 n hn =>
    refine ⟨[], base64Char n, rfl, by simp, ?_⟩
    rw [continues?_base64Char (by omega), decide_eq_false (by omega)]
  | case2 n hn ih =>
    obtain ⟨front, last, hs, hfront, hlast⟩ := ih
    have hfirst : continues? (base64Char (32 + n % 32)) = some true := by
      rw [continues?_base64Char (by omega), decide_eq_true (by omega)]
    exact ⟨_ :: front, last, by rw [List.map_cons, hs, List.cons_append],
      List.forall_mem_cons.2 ⟨hfirst, hfront⟩, hlast⟩

theorem isTerminated_encodeVlq (n : Int) : IsTerminated (encodeVlq n).toList := by
  rw [encodeVlq, String.toList_ofList]
  exact isTerminated_vlqDigits _

/-- A terminated text does not go on: the digit that ends it would have to say that more follow. -/
theorem IsTerminated.eq_of_isPrefix {s t : List Char} (hs : IsTerminated s) (ht : IsTerminated t)
    (h : s <+: t) : s = t := by
  obtain ⟨front, last, rfl, -, hlast⟩ := hs
  obtain ⟨front', last', rfl, hfront', -⟩ := ht
  rcases List.prefix_concat_iff.1 h with heq | hinside
  · exact heq
  · have hmem : last ∈ front' := hinside.subset (by simp)
    rw [hfront' last hmem] at hlast
    cases hlast

theorem encodeVlq_injective : Function.Injective encodeVlq := by
  intro m n h
  have hread : some [m] = some [n] := by
    rw [← decodeVlq?_join [m], ← decodeVlq?_join [n], List.map_singleton, List.map_singleton, h]
  exact List.head_eq_of_cons_eq (Option.some.inj hread)

/-- **The texts of the integers are a prefix code.**  Whatever integers are written one behind the
other, they are read back.  The text of each one is made of digits, the last of which is the only
one that does not say that more follow, so it is not the beginning of another one's text. -/
theorem encodeVlq_prefixCode (ns : List Int) (m n : Int) :
    decodeVlq? (String.join (ns.map encodeVlq)) = some ns ∧
      encodeVlq n ≠ "" ∧
      (encodeVlq n).toList ⊆ base64Alphabet ∧
      (',' ∉ (encodeVlq n).toList ∧ ';' ∉ (encodeVlq n).toList) ∧
      IsTerminated (encodeVlq n).toList ∧
      ((encodeVlq m).toList <+: (encodeVlq n).toList ↔ m = n) := by
  refine ⟨decodeVlq?_join ns, encodeVlq_ne_empty n, subset_encodeVlq n,
    ⟨fun h => (unmarked_encodeVlq n _ h).1 rfl, fun h => (unmarked_encodeVlq n _ h).2 rfl⟩,
    isTerminated_encodeVlq n, fun h => ?_, fun h => h ▸ List.prefix_rfl⟩
  have htext := (isTerminated_encodeVlq m).eq_of_isPrefix (isTerminated_encodeVlq n) h
  exact encodeVlq_injective (String.toList_inj.1 htext)

/-! ## Groups -/

/-- The one segment of a line with an origin. -/
def segment (column line sourceColumn : Int) : String :=
  encodeVlq column ++ encodeVlq 0 ++ encodeVlq line ++ encodeVlq sourceColumn

theorem decodeVlq?_segment (column line sourceColumn : Int) :
    decodeVlq? (segment column line sourceColumn) = some [column, 0, line, sourceColumn] := by
  have hlast := decodeFrom_encodeVlq sourceColumn []
  rw [List.append_nil] at hlast
  simp [decodeVlq?, segment, decodeFrom_encodeVlq, hlast, decodeFrom]

theorem unmarked_segment (column line sourceColumn : Int) :
    ∀ c ∈ (segment column line sourceColumn).toList, c ≠ ',' ∧ c ≠ ';' := by
  intro c hc
  simp only [segment, String.toList_append, List.mem_append] at hc
  rcases hc with ((hc | hc) | hc) | hc
  all_goals exact unmarked_encodeVlq _ c hc

theorem groupsFrom_cons_of_some {line : GeneratedLine} {p : Position} (h : line.origin = some p)
    (lastLine lastColumn : Int) (rest : List GeneratedLine) :
    groupsFrom lastLine lastColumn (line :: rest) =
      segment line.column (p.line - 1 - lastLine) (p.column - 1 - lastColumn)
        :: groupsFrom (p.line - 1) (p.column - 1) rest := by
  rw [groupsFrom, h]
  rfl

theorem unmarked_groupsFrom (lastLine lastColumn : Int) (lines : List GeneratedLine) :
    ∀ group ∈ groupsFrom lastLine lastColumn lines, ∀ c ∈ group.toList, c ≠ ';' := by
  induction lines generalizing lastLine lastColumn with
  | nil => simp [groupsFrom]
  | cons line rest ih =>
    cases h : line.origin with
    | none =>
      rw [groupsFrom, h]
      exact List.forall_mem_cons.2 ⟨by simp, ih lastLine lastColumn⟩
    | some p =>
      rw [groupsFrom_cons_of_some h]
      exact List.forall_mem_cons.2 ⟨fun c hc => (unmarked_segment _ _ _ c hc).2, ih _ _⟩

/-- The segments of a group: none in an empty group, and else the one that it is. -/
theorem segments_of_segment (column line sourceColumn : Int) :
    (cutWhere (· == ',') (segment column line sourceColumn).toList).filter (!·.isEmpty) =
      [(segment column line sourceColumn).toList] := by
  rw [cutWhere_eq_singleton fun c hc => beq_eq_false_iff_ne.2 (unmarked_segment _ _ _ c hc).1]
  simp [segment, encodeVlq_ne_empty]

/-- A segment moves the place in the source on and records where it is then. -/
theorem decodeSegments_segment (number : Nat) (lastLine lastColumn column line sourceColumn : Int) :
    decodeSegments number 0 lastLine lastColumn
        [(segment column (line - lastLine) (sourceColumn - lastColumn)).toList] =
      .ok ([⟨number, column, line, sourceColumn⟩], line, sourceColumn) := by
  rw [decodeSegments, String.ofList_toList, decodeVlq?_segment]
  simp [decodeSegments, bind, Except.bind]

/-- **The differences add up.**  In front of every line, the decoder stands at the place in the
source that the encoder has written last. -/
theorem decodeGroups_groupsFrom (number : Nat) (lastLine lastColumn : Int)
    (lines : List GeneratedLine) :
    decodeGroups number lastLine lastColumn
        ((groupsFrom lastLine lastColumn lines).map String.toList) =
      .ok (mappingsFrom number lines) := by
  induction lines generalizing number lastLine lastColumn with
  | nil => rfl
  | cons line rest ih =>
    cases h : line.origin with
    | none =>
      rw [groupsFrom, h, List.map_cons, decodeGroups, mappingsFrom, lineMapping?, h]
      simp [cutWhere, decodeSegments, ih, bind, Except.bind]
    | some p =>
      rw [groupsFrom_cons_of_some h, List.map_cons, decodeGroups, segments_of_segment,
        decodeSegments_segment, mappingsFrom, lineMapping?, h]
      simp [ih, bind, Except.bind]

/-- Groups with semicolons between them are decoded one after the other. -/
theorem decode_intercalate {groups : List String}
    (h : ∀ group ∈ groups, ∀ c ∈ group.toList, c ≠ ';') :
    decode (";".intercalate groups) = decodeGroups 0 0 0 (groups.map String.toList) := by
  have htext : (";".intercalate groups).toList = [';'].intercalate (groups.map String.toList) := by
    rw [String.toList_intercalate]
    rfl
  have hmarks : ∀ s ∈ groups.map String.toList, ∀ c ∈ s, (c == ';') = false := by
    intro s hs c hc
    obtain ⟨group, hgroup, rfl⟩ := List.mem_map.1 hs
    exact beq_eq_false_iff_ne.2 (h group hgroup c hc)
  rw [decode, htext, cutWhere_intercalate rfl hmarks]
  split
  · -- without groups the text is empty, which is read as one group without segments
    rename_i hempty
    rw [List.isEmpty_iff.1 hempty]
    rfl
  · rfl

/-- **A source map decodes to what was recorded.**  Whatever lines are written, with whatever texts,
columns and origins, the decoder gives their mappings back, in order. -/
theorem decode_encode (lines : List GeneratedLine) :
    decode (encode lines) = .ok (mappings lines) := by
  rw [encode, decode_intercalate (unmarked_groupsFrom 0 0 lines), decodeGroups_groupsFrom]
  rfl

end SourceMap
end Atoll
