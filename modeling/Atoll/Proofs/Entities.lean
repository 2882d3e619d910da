import Atoll.Markup.Escape

/-!
# Entities can be decoded

Content and attribute values are escaped character by character: what would end the place where it
stands is written as an entity, and so is the ampersand that starts one.

* `escapeOnly` — the escaping of given characters.  `not_mem_escapeOnly`: but for ampersands they
  are gone; `isPrefix_of_escapeOnly`: **every ampersand starts an entity**; `decode_escapeOnly`:
  **decoding gives the text back.**
* `isReversible_escapeOnly` — hence content and values between quotes can be decoded.
-/

set_option autoImplicit false

namespace Atoll
namespace Markup

/-- The characters that have an entity. -/
def marks : List Char :=
  ['&', '<', '>', '"', '\'']

/-- The text with the given characters escaped. -/
def escapeOnly (marked s : List Char) : List Char :=
  s.flatMap fun c => if c ∈ marked then escapeChar c else [c]

/-- The text that the entities of the given characters stand for, read from left to right.  `skip`
counts the characters of the current entity still to be passed over. -/
def decodeFrom (marked : List Char) : Nat → List Char → List Char
  | _, [] => []
  | skip + 1, _ :: cs => decodeFrom marked skip cs
  | 0, c :: cs =>
    match marked.find? fun m => (escapeChar m).isPrefixOf (c :: cs) with
    | some m => m :: decodeFrom marked ((escapeChar m).length - 1) cs
    | none => c :: decodeFrom marked 0 cs

/-- The text with the entities of the given characters decoded. -/
def decodeEntities (marked : List Char) (s : String) : String :=
  String.ofList (decodeFrom marked 0 s.toList)

theorem forall_marks {P : Char → Prop} :
    (∀ m ∈ marks, P m) ↔ P '&' ∧ P '<' ∧ P '>' ∧ P '"' ∧ P '\'' := by
  simp [marks]

/-- An ampersand starts an entity, and there is no other one in it. -/
theorem escapeChar_eq_cons : ∀ m ∈ marks, ∃ name, escapeChar m = '&' :: name ∧ '&' ∉ name := by
  rw [forall_marks]
  refine ⟨⟨_, rfl, ?_⟩, ⟨_, rfl, ?_⟩, ⟨_, rfl, ?_⟩, ⟨_, rfl, ?_⟩, ⟨_, rfl, ?_⟩⟩ <;> decide

/-- Of the characters that have entities, only ampersands occur in them. -/
theorem mark_not_mem_escapeChar : ∀ m ∈ marks, ∀ n ∈ marks, m ≠ '&' → m ∉ escapeChar n := by
  simp only [forall_marks]
  refine ⟨?_, ?_, ?_, ?_, ?_⟩ <;> decide

theorem eq_of_escapeChar_isPrefix :
    ∀ m ∈ marks, ∀ n ∈ marks, escapeChar m <+: escapeChar n → m = n := by
  simp only [forall_marks]
  refine ⟨?_, ?_, ?_, ?_, ?_⟩ <;> decide

theorem escapeChar_of_not_mem {c : Char} (hc : c ∉ marks) : escapeChar c = [c] := by
  simp only [marks, List.mem_cons, List.not_mem_nil, not_or, or_false] at hc
  unfold escapeChar
  split <;> simp_all

section

variable {marked : List Char} (hmarked : marked ⊆ marks)

include hmarked

theorem not_mem_escapeOnly {m : Char} (hm : m ∈ marked) (hne : m ≠ '&') (s : List Char) :
    m ∉ escapeOnly marked s := by
  intro hmem
  obtain ⟨c, -, hc⟩ := List.mem_flatMap.1 hmem
  split at hc
  · rename_i hmark
    exact mark_not_mem_escapeChar m (hmarked hm) c (hmarked hmark) hne hc
  · rename_i hmark
    exact hmark (List.mem_singleton.1 hc ▸ hm)

variable (hand : '&' ∈ marked)

include hand

/-- **Every ampersand starts an entity**, by induction on the text: it stands in what is written for
the first character, or behind that. -/
theorem isPrefix_of_escapeOnly {s a b : List Char} (hs : escapeOnly marked s = a ++ '&' :: b) :
    ∃ m ∈ marked, escapeChar m <+: '&' :: b := by
  induction s generalizing a with
  | nil => simp [escapeOnly] at hs
  | cons c cs ih =>
    rw [escapeOnly, List.flatMap_cons, List.append_eq_append_iff] at hs
    rcases hs with ⟨a', -, hrest⟩ | ⟨inside, hfirst, hb⟩
    · exact ih hrest
    cases inside with
    | nil => exact ih (a := []) hb.symm
    | cons d inside =>
      rw [List.cons_append, List.cons.injEq] at hb
      obtain ⟨rfl, rfl⟩ := hb
      by_cases hc : c ∈ marked
      · obtain ⟨name, hname, hno⟩ := escapeChar_eq_cons c (hmarked hc)
        rw [if_pos hc, hname] at hfirst
        cases a with
        | nil => exact ⟨c, hc, by rw [hname, hfirst]; exact List.prefix_append _ _⟩
        | cons d a => exact absurd (by simp [(List.cons.inj hfirst).2]) hno
      · have hmem : '&' ∈ [c] := by simp [if_neg hc ▸ hfirst]
        exact absurd (List.mem_singleton.1 hmem ▸ hand) hc

omit hmarked hand in
theorem decodeFrom_append (a b : List Char) :
    decodeFrom marked a.length (a ++ b) = decodeFrom marked 0 b := by
  induction a with
  | nil => rfl
  | cons c a ih => rw [List.length_cons, List.cons_append, decodeFrom, ih]

omit hand in
/-- Where an entity stands, no other one is found. -/
theorem find?_escapeChar {m : Char} (hm : m ∈ marked) (rest : List Char) :
    marked.find? (fun n => (escapeChar n).isPrefixOf (escapeChar m ++ rest)) = some m := by
  cases hfind : marked.find? fun n => (escapeChar n).isPrefixOf (escapeChar m ++ rest) with
  | none =>
    refine absurd ?_ (List.find?_eq_none.1 hfind m hm)
    exact List.isPrefixOf_iff_prefix.2 (List.prefix_append _ _)
  | some n =>
    have hn := hmarked (List.mem_of_find?_eq_some hfind)
    have hlead : escapeChar n <+: escapeChar m ++ rest := by simpa using List.find?_some hfind
    rcases List.prefix_or_prefix_of_prefix hlead (List.prefix_append _ _) with h | h
    · rw [eq_of_escapeChar_isPrefix n hn m (hmarked hm) h]
    · rw [eq_of_escapeChar_isPrefix m (hmarked hm) n hn h]

/-- **Decoding gives the text back**, character by character: what is written as itself does not
start an entity. -/
theorem decode_escapeOnly (s : List Char) : decodeFrom marked 0 (escapeOnly marked s) = s := by
  induction s with
  | nil => rfl
  | cons c cs ih =>
    rw [escapeOnly, List.flatMap_cons, ← escapeOnly]
    by_cases hc : c ∈ marked
    · obtain ⟨name, hname, -⟩ := escapeChar_eq_cons c (hmarked hc)
      have hfind := find?_escapeChar hmarked hc (escapeOnly marked cs)
      rw [hname, List.cons_append] at hfind
      rw [if_pos hc, hname, List.cons_append, decodeFrom, hfind]
      dsimp only
      rw [hname, List.length_cons, Nat.add_sub_cancel, decodeFrom_append, ih]
    · have hfind : marked.find? (fun m => (escapeChar m).isPrefixOf (c :: escapeOnly marked cs)) =
          none := by
        refine List.find?_eq_none.2 fun m hm hlead => hc ?_
        obtain ⟨name, hname, -⟩ := escapeChar_eq_cons m (hmarked hm)
        rw [hname, List.isPrefixOf_iff_prefix, List.cons_prefix_cons] at hlead
        exact hlead.1 ▸ hand
      rw [if_neg hc, List.singleton_append, decodeFrom, hfind]
      dsimp only
      rw [ih]

end

/-- An escaping of the given characters leaves none of them but ampersands, each of which starts one
of their entities.  Decoding these gives the text back, so no two texts are escaped alike. -/
structure IsReversible (escape : String → String) (marked : List Char) : Prop where
  closed : ∀ s, ∀ m ∈ marked, m ≠ '&' → m ∉ (escape s).toList
  ampersand : ∀ s a b, (escape s).toList = a ++ '&' :: b → ∃ m ∈ marked, escapeChar m <+: '&' :: b
  decode : ∀ s, decodeEntities marked (escape s) = s
  injective : Function.Injective escape

theorem isReversible_escapeOnly {marked : List Char} (hmarked : marked ⊆ marks)
    (hand : '&' ∈ marked) {escape : String → String}
    (h : ∀ s, (escape s).toList = escapeOnly marked s.toList) : IsReversible escape marked := by
  have hdecode : ∀ s, decodeEntities marked (escape s) = s := by
    intro s
    rw [decodeEntities, h, decode_escapeOnly hmarked hand, String.ofList_toList]
  refine ⟨fun s m hm hne => ?_, fun s a b hs => ?_, hdecode, Function.LeftInverse.injective hdecode⟩
  · rw [h]
    exact not_mem_escapeOnly hmarked hm hne _
  · rw [h] at hs
    exact isPrefix_of_escapeOnly hmarked hand hs

theorem toList_escapeHtml (s : String) : (escapeHtml s).toList = escapeOnly marks s.toList := by
  rw [escapeHtml, String.toList_ofList, escapeOnly]
  congr 1
  funext c
  split
  · rfl
  · exact escapeChar_of_not_mem ‹_›

theorem toList_escapeBetween_eq (quote : Char) (s : String) :
    (escapeBetween quote s).toList = escapeOnly ['&', quote] s.toList := by
  rw [escapeBetween, String.toList_ofList, escapeOnly]
  simp

end Markup
end Atoll
