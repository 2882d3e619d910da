import Atoll.Proofs.Declaring
import Atoll.Proofs.Outcome

/-!
# The names that a pattern binds

A pattern is a name, or takes a value apart: its parts are patterns again, behind keys and in front
of default values.  `targets` reads the names off a pattern, with no value at hand.

* `withoutDefault`, `entryTarget`, `targets` — the parts of a pattern and the names in them.
* `StandsIn` — one text is a whole word or more of another; `standsIn_of_mem_targets`: every target
  is written out in its pattern.
* `isClear` — patterns whose brackets are closed, whose lists end with their rest, and where no
  default value has a colon of its own.
* `Scope.bindPattern_names` — **a clear pattern that can be bound binds its targets**, one after the
  other, and what any pattern does to the names bound before is to set some of them.
-/

set_option autoImplicit false

namespace Atoll

namespace Script

open Text

variable {s pattern : List Char} {i : Nat} {c : Char} {label : Label}

/-! ## The targets of a pattern -/

/-- A target up to the sign of its default value. -/
def withoutDefault (target : List Char) : List Char :=
  match findAssign? target with
  | some i => target.take i
  | none => target

/-- Whether the first colon of a part stands in its default value. -/
def colonInDefault (part : List Char) : Bool :=
  (findTop? ':' part).any fun i => (findAssign? (part.take i)).isSome

/-- What a part of an object pattern binds: what stands behind its key, which ends with a colon in
front of any default value. -/
def entryTarget (part : List Char) : List Char :=
  match findTop? ':' part with
  | some i => withoutDefault (if colonInDefault part then part else part.drop (i + 1))
  | none => withoutDefault part

/-- What a part of a pattern binds: what stands behind the dots of a rest, or what `target` reads
off any other part. -/
def partTarget (target : List Char → List Char) (part : List Char) : List Char :=
  (afterLiteral? "..." (trim part)).getD (target (trim part))

/-- Whether a text ends with a closing bracket. -/
def isClosed (s : List Char) : Bool :=
  s.getLast?.any isClosing

/-- The parts that stand behind an opening bracket. -/
def partsOf (body : List Char) : List (List Char) :=
  splitCommas (if isClosed body then body.dropLast else body)

/-- The names that a pattern binds, from left to right; brackets may be nested in `levels` levels
with a name inside. -/
def targets : Nat → List Char → List String
  | 0, _ => []
  | levels + 1, pattern =>
    match trim pattern with
    | '{' :: body =>
      (partsOf body).flatMap fun part => targets levels (partTarget entryTarget part)
    | '[' :: body =>
      (partsOf body).flatMap fun part => targets levels (partTarget withoutDefault part)
    | name => if Scope.isName name then [String.ofList name] else []

/-- Whether nothing stands behind the first rest among some parts. -/
def restIsLast : List (List Char) → Bool
  | [] => true
  | part :: parts =>
    if (afterLiteral? "..." (trim part)).isSome then parts.all fun part => (trim part).isEmpty
    else restIsLast parts

/-- Whether a pattern is closed, no list in it goes on behind its rest, and no default value in it
has a colon that could end a key. -/
def isClear : Nat → List Char → Bool
  | 0, _ => true
  | levels + 1, pattern =>
    match trim pattern with
    | '{' :: body =>
      isClosed body && (partsOf body).all fun part =>
        !colonInDefault (trim part) && isClear levels (partTarget entryTarget part)
    | '[' :: body =>
      isClosed body && restIsLast (partsOf body) && (partsOf body).all fun part =>
        isClear levels (partTarget withoutDefault part)
    | _ => true

/-- The names that a declarator is to bind. -/
def Declarator.targets (d : Declarator) : List String :=
  Script.targets (d.pattern.length + 1) d.pattern.toList

/-- Whether the pattern of a declarator is clear. -/
def Declarator.isClear (d : Declarator) : Bool :=
  Script.isClear (d.pattern.length + 1) d.pattern.toList

theorem partsOf_of_isClosed {body : List Char} (h : isClosed body = true) :
    partsOf body = splitCommas body.dropLast := by
  rw [partsOf, if_pos h]

theorem targets_nil (levels : Nat) : targets levels [] = [] := by
  cases levels <;> rfl

section

variable {levels : Nat} {pattern body : List Char}

theorem targets_brace (h : trim pattern = '{' :: body) : targets (levels + 1) pattern =
    (partsOf body).flatMap fun part => targets levels (partTarget entryTarget part) := by
  simp only [targets, h]

theorem targets_bracket (h : trim pattern = '[' :: body) : targets (levels + 1) pattern =
    (partsOf body).flatMap fun part => targets levels (partTarget withoutDefault part) := by
  simp only [targets, h]

theorem targets_name (h : Scope.isName (trim pattern) = true) :
    targets (levels + 1) pattern = [String.ofList (trim pattern)] := by
  obtain ⟨c, cs, heq, hc, -⟩ := exists_of_isName h
  have hbrace : c ≠ '{' := by
    rintro rfl
    cases hc
  have hbracket : c ≠ '[' := by
    rintro rfl
    cases hc
  rw [heq] at h
  simp [targets, heq, hbrace, hbracket, h]

end

/-! ## Targets are written out -/

/-- One text stands in another: no character of a name is next to it. -/
def StandsIn (x s : List Char) : Prop :=
  ∃ a b, s = a ++ x ++ b ∧ (∀ c ∈ a.getLast?, isNameRest c = false) ∧
    ∀ c ∈ b.head?, isNameRest c = false

namespace StandsIn

theorem refl (s : List Char) : StandsIn s s :=
  ⟨[], [], by simp⟩

theorem trans {x t : List Char} (hx : StandsIn x s) (hs : StandsIn s t) : StandsIn x t := by
  obtain ⟨a, b, rfl, ha, hb⟩ := hx
  obtain ⟨a', b', rfl, ha', hb'⟩ := hs
  refine ⟨a' ++ a, b ++ b', by simp, fun c hc => ?_, fun c hc => ?_⟩
  · rw [List.getLast?_append] at hc
    cases hlast : a.getLast? with
    | none => exact ha' c (by simpa [hlast] using hc)
    | some d => exact ha c (by simpa [hlast] using hc)
  · rw [List.head?_append] at hc
    cases hhead : b.head? with
    | none => exact hb' c (by simpa [hhead] using hc)
    | some d => exact hb c (by simpa [hhead] using hc)

/-- A text that is cut off behind a character. -/
theorem drop (h : s[i]? = some c) (hc : isNameRest c = false) : StandsIn (s.drop (i + 1)) s := by
  refine ⟨s.take (i + 1), [], by simp, fun d hd => ?_, by simp⟩
  rw [List.getLast?_take, if_neg (Nat.succ_ne_zero i), Nat.add_sub_cancel, h] at hd
  cases hd
  exact hc

/-- A text that is cut off in front of a character. -/
theorem take (h : s[i]? = some c) (hc : isNameRest c = false) : StandsIn (s.take i) s := by
  refine ⟨[], s.drop i, by simp, by simp, fun d hd => ?_⟩
  rw [List.head?_drop, h] at hd
  cases hd
  exact hc

theorem cons (hc : isNameRest c = false) (s : List Char) : StandsIn s (c :: s) :=
  drop (i := 0) rfl hc

end StandsIn

theorem standsIn_trim (s : List Char) : StandsIn (trim s) s := by
  obtain ⟨a, b, ha, hb, hs⟩ := exists_trim_append s
  refine ⟨a, b, by rw [List.append_assoc, ← hs], fun c hc => ?_, fun c hc => ?_⟩
  · exact isNameRest_of_isBlank (ha c (List.mem_of_getLast? hc))
  · exact isNameRest_of_isBlank (hb c (List.mem_of_head? hc))

theorem map_fst_marked (n : Nesting) (s : List Char) : (marked n s).map Prod.fst = s := by
  induction s generalizing n with
  | nil => rfl
  | cons c cs ih => rw [marked, List.map_cons, ih]

theorem getElem?_of_findTop? (h : findTop? c s = some i) : s[i]? = some c := by
  obtain ⟨hi, hfound, -⟩ := List.findIdx?_eq_some_iff_getElem.1 h
  have hmark : (topLevel s)[i].1 = c := eq_of_beq (Bool.and_eq_true_iff.1 hfound).2
  have hchar : ((topLevel s).map Prod.fst)[i]? = some c := by
    rw [List.getElem?_map, List.getElem?_eq_getElem hi, Option.map_some, hmark]
  rwa [topLevel, map_fst_marked] at hchar

theorem getElem?_of_findAssign? (h : findAssign? s = some i) : s[i]? = some '=' := by
  have hfrom : ∀ (m : List (Char × Bool)) (before : Option Char) (i : Nat),
      findAssignFrom? before m = some i → (m.map Prod.fst)[i]? = some '=' := by
    intro m
    induction m with
    | nil =>
      intro before i h
      cases h
    | cons entry m ih =>
      intro before i h
      rw [findAssignFrom?] at h
      split at h
      · rename_i hsign
        cases h
        simp only [Bool.and_eq_true, beq_iff_eq] at hsign
        exact congrArg some hsign.1.2
      · obtain ⟨j, hj, rfl⟩ := Option.map_eq_some_iff.1 h
        exact ih _ _ hj
  have hsign := hfrom _ _ _ h
  rwa [topLevel, map_fst_marked] at hsign

/-- The pieces of a text stand between the marks: the first one at the start, the others behind a
mark, and each in front of a mark or at the end. -/
theorem exists_of_splitMarked (hc : isNameRest c = false) (m : List (Char × Bool)) :
    ∃ first pieces, splitMarked c m = first :: pieces ∧
      (∃ b, m.map Prod.fst = first ++ b ∧ ∀ d ∈ b.head?, isNameRest d = false) ∧
      ∀ piece ∈ pieces, ∃ a b, m.map Prod.fst = a ++ c :: piece ++ b ∧
        ∀ d ∈ b.head?, isNameRest d = false := by
  induction m with
  | nil => exact ⟨[], [], rfl, ⟨[], rfl, by simp⟩, by simp⟩
  | cons entry m ih =>
    obtain ⟨d, top⟩ := entry
    obtain ⟨first, pieces, hsplit, ⟨b, hb, hnext⟩, hpieces⟩ := ih
    rw [splitMarked, hsplit]
    split
    · rename_i hmark
      obtain rfl : d = c := eq_of_beq (Bool.and_eq_true_iff.1 hmark).2
      refine ⟨[], first :: pieces, rfl, ⟨d :: m.map Prod.fst, rfl, ?_⟩, ?_⟩
      · rintro _ ⟨⟩
        exact hc
      · refine List.forall_mem_cons.2 ⟨⟨[], b, by simp [hb], hnext⟩, fun piece hpiece => ?_⟩
        obtain ⟨a, b, hb, hnext⟩ := hpieces piece hpiece
        exact ⟨d :: a, b, by simp [hb], hnext⟩
    · refine ⟨d :: first, pieces, rfl, ⟨b, by simp [hb], hnext⟩, fun piece hpiece => ?_⟩
      obtain ⟨a, b, hb, hnext⟩ := hpieces piece hpiece
      exact ⟨d :: a, b, by simp [hb], hnext⟩

theorem standsIn_of_mem_splitCommas {piece : List Char} (h : piece ∈ splitCommas s) :
    StandsIn piece s := by
  obtain ⟨first, pieces, hsplit, ⟨b, hb, hnext⟩, hpieces⟩ :=
    exists_of_splitMarked (c := ',') (by decide) (topLevel s)
  rw [topLevel, map_fst_marked] at hb hpieces
  rw [splitCommas, hsplit, List.mem_cons] at h
  rcases h with rfl | h
  · exact ⟨[], b, hb, by simp, hnext⟩
  · obtain ⟨a, b, hb, hnext⟩ := hpieces piece h
    exact ⟨a ++ [','], b, by simp [hb], by simp; decide, hnext⟩

theorem standsIn_withoutDefault (target : List Char) : StandsIn (withoutDefault target) target := by
  rw [withoutDefault]
  split
  · rename_i i hassign
    exact .take (getElem?_of_findAssign? hassign) (by decide)
  · exact .refl target

theorem standsIn_entryTarget (part : List Char) : StandsIn (entryTarget part) part := by
  rw [entryTarget]
  split
  · rename_i i hcolon
    split
    · exact standsIn_withoutDefault part
    · exact (standsIn_withoutDefault _).trans (.drop (getElem?_of_findTop? hcolon) (by decide))
  · exact standsIn_withoutDefault part

theorem standsIn_partTarget {target : List Char → List Char}
    (htarget : ∀ part, StandsIn (target part) part) (part : List Char) :
    StandsIn (partTarget target part) part := by
  refine StandsIn.trans ?_ (standsIn_trim part)
  rw [partTarget]
  cases hrest : afterLiteral? "..." (trim part) with
  | none => exact htarget _
  | some rest =>
    have hdots : "...".toList ++ rest = trim part := List.isPrefixOf?_eq_some_iff_append_eq.1 hrest
    rw [Option.getD_some, ← hdots]
    exact .drop (i := 2) rfl (by decide)

theorem isNameRest_of_isClosing (h : isClosing c = true) : isNameRest c = false := by
  simp only [isClosing, Bool.or_eq_true, beq_iff_eq] at h
  rcases h with (rfl | rfl) | rfl <;> decide

theorem standsIn_of_mem_partsOf {body part : List Char} (h : part ∈ partsOf body) :
    StandsIn part body := by
  refine (standsIn_of_mem_splitCommas h).trans ?_
  split
  · rename_i hclosed
    obtain ⟨c, hlast, hc⟩ := (Option.any_eq_true _ _).1 hclosed
    refine ⟨[], [c], (List.dropLast_append_getLast? c hlast).symm, by simp, ?_⟩
    rintro _ ⟨⟩
    exact isNameRest_of_isClosing hc
  · exact .refl body

/-- Every target is written out in its pattern. -/
theorem standsIn_of_mem_targets {levels : Nat} {x : String}
    (h : x ∈ targets levels pattern) : StandsIn x.toList pattern := by
  induction levels generalizing pattern with
  | zero => cases h
  | succ levels ih =>
    refine StandsIn.trans ?_ (standsIn_trim pattern)
    rw [targets] at h
    -- a part stands behind the opening bracket
    have hpart {target : List Char → List Char} (htarget : ∀ part, StandsIn (target part) part)
        {c : Char} (hc : isNameRest c = false) {body : List Char}
        (h : x ∈ (partsOf body).flatMap fun part => targets levels (partTarget target part)) :
        StandsIn x.toList (c :: body) := by
      obtain ⟨part, hmem, hx⟩ := List.mem_flatMap.1 h
      exact (((ih hx).trans (standsIn_partTarget htarget part)).trans
        (standsIn_of_mem_partsOf hmem)).trans (.cons hc body)
    split at h
    · rename_i heq
      rw [heq]
      exact hpart standsIn_entryTarget (by decide) h
    · rename_i heq
      rw [heq]
      exact hpart standsIn_withoutDefault (by decide) h
    · split at h
      · cases List.mem_singleton.1 h
        rw [String.toList_ofList]
        exact .refl _
      · cases h

/-! ## Binding -/

namespace Scope

/-- From `out` to `out'` some names are set, and they are `names` if `clear` holds. -/
def Sets (out out' : Bindings) (clear : Prop) (names : List String) : Prop :=
  ∃ new, out' = setEntries out new ∧ (clear → new.map Prod.fst = names)

section

variable {out out₁ out' : Bindings} {p q : Prop} {a b : List String}

theorem Sets.refl (out : Bindings) (p : Prop) : Sets out out p [] :=
  ⟨[], rfl, fun _ => rfl⟩

theorem Sets.trans (h : Sets out out₁ p a) (h' : Sets out₁ out' q b) :
    Sets out out' (p ∧ q) (a ++ b) := by
  obtain ⟨new, rfl, hnew⟩ := h
  obtain ⟨more, rfl, hmore⟩ := h'
  refine ⟨new ++ more, (setEntries_append out new more).symm, fun hclear => ?_⟩
  rw [List.map_append, hnew hclear.1, hmore hclear.2]

theorem Sets.imp (h : Sets out out' p a) (hp : q → p) (hnames : q → a = b) : Sets out out' q b := by
  obtain ⟨new, hout, hnew⟩ := h
  exact ⟨new, hout, fun hq => (hnew (hp hq)).trans (hnames hq)⟩

end

theorem withDefault_target {s : Scope} {target target' : List Char} {value value' : Value}
    (h : s.withDefault label target value = .ok (target', value')) :
    target' = withoutDefault target := by
  rw [withDefault] at h
  rw [withoutDefault]
  cases hassign : findAssign? target with
  | none =>
    rw [hassign] at h
    cases h
    rfl
  | some i =>
    rw [hassign] at h
    cases value
    case undefined =>
      obtain ⟨v, -, hv⟩ := exists_of_bind h
      cases hv
      rfl
    all_goals
      cases h
      rfl

theorem keyAndTarget_target {part : List Char} (h : colonInDefault part = false) :
    withoutDefault (keyAndTarget part).2 = entryTarget part := by
  rw [keyAndTarget, entryTarget, h]
  cases findTop? ':' part <;> rfl

section

variable {names : List Char → List String} {clear : List Char → Bool} {bind : Binder} {s : Scope}
  (hbind : ∀ label pattern value out out', bind label pattern value out = .ok out' →
    Sets out out' (clear pattern = true) (names pattern))
  (hnil : names [] = [])
include hbind hnil

theorem bindObject_names {value : Value} {used : List String} {out out' : Bindings}
    {parts : List (List Char)} (h : bindObject s bind label value i used out parts = .ok out') :
    Sets out out'
      (∀ p ∈ parts, colonInDefault (trim p) = false ∧ clear (partTarget entryTarget p) = true)
      (parts.flatMap fun p => names (partTarget entryTarget p)) := by
  induction parts generalizing i used out with
  | nil =>
    cases h
    exact .refl _ _
  | cons part parts ih =>
    rw [bindObject] at h
    dsimp only at h
    split at h
    · rename_i hempty
      have hpart : names (partTarget entryTarget part) = [] := by
        rw [partTarget, List.isEmpty_iff.1 hempty]
        exact hnil
      refine (ih h).imp (fun hclear => (List.forall_mem_cons.1 hclear).2) fun _ => ?_
      rw [List.flatMap_cons, hpart, List.nil_append]
    · split at h
      · rename_i target hrest
        obtain ⟨out₁, hset, h⟩ := exists_of_bind h
        have htarget : target = partTarget entryTarget part := by
          rw [partTarget, hrest, Option.getD_some]
        rw [htarget] at hset
        exact ((hbind _ _ _ _ _ hset).trans (ih h)).imp
          (fun hclear => (List.forall_mem_cons.1 hclear).imp_left And.right) fun _ => rfl
      · rename_i hrest
        obtain ⟨item, -, h⟩ := exists_of_bind h
        obtain ⟨⟨target, item'⟩, hdefault, h⟩ := exists_of_bind h
        obtain ⟨out₁, hset, h⟩ := exists_of_bind h
        have htarget (hcolon : colonInDefault (trim part) = false) :
            target = partTarget entryTarget part := by
          rw [withDefault_target hdefault, keyAndTarget_target hcolon, partTarget, hrest,
            Option.getD_none]
        refine ((hbind _ _ _ _ _ hset).trans (ih h)).imp (fun hclear => ?_) fun hclear => ?_
        · obtain ⟨⟨hcolon, hpart⟩, hparts⟩ := List.forall_mem_cons.1 hclear
          exact ⟨htarget hcolon ▸ hpart, hparts⟩
        · rw [htarget (List.forall_mem_cons.1 hclear).1.1, List.flatMap_cons]

theorem bindArray_names {value : Value} {out out' : Bindings} {parts : List (List Char)}
    (h : bindArray s bind label value i out parts = .ok out') :
    Sets out out'
      (restIsLast parts = true ∧ ∀ p ∈ parts, clear (partTarget withoutDefault p) = true)
      (parts.flatMap fun p => names (partTarget withoutDefault p)) := by
  have hblank {part : List Char} (hempty : (trim part).isEmpty = true) :
      names (partTarget withoutDefault part) = [] := by
    rw [partTarget, List.isEmpty_iff.1 hempty]
    exact hnil
  induction parts generalizing i out with
  | nil =>
    cases h
    exact .refl _ _
  | cons part parts ih =>
    rw [bindArray] at h
    dsimp only at h
    split at h
    · rename_i hempty
      have hrest : afterLiteral? "..." (trim part) = none := by
        rw [List.isEmpty_iff.1 hempty]
        rfl
      refine (ih h).imp (fun hclear => ?_) fun _ => ?_
      · rw [restIsLast, hrest] at hclear
        exact hclear.imp_right fun hall => (List.forall_mem_cons.1 hall).2
      · rw [List.flatMap_cons, hblank hempty, List.nil_append]
    · split at h
      · rename_i target hrest
        have htarget : target = partTarget withoutDefault part := by
          rw [partTarget, hrest, Option.getD_some]
        rw [htarget] at h
        refine (hbind _ _ _ _ _ h).imp (fun hclear => (List.forall_mem_cons.1 hclear.2).1)
          fun hclear => ?_
        -- the parts behind the rest are blank
        rw [restIsLast, hrest, Option.isSome_some, if_pos rfl, List.all_eq_true] at hclear
        have hbehind : parts.flatMap (fun p => names (partTarget withoutDefault p)) = [] :=
          List.flatMap_eq_nil_iff.2 fun p hp => hblank (hclear.1 p hp)
        rw [List.flatMap_cons, hbehind, List.append_nil]
      · rename_i hrest
        obtain ⟨item, -, h⟩ := exists_of_bind h
        obtain ⟨⟨target, item'⟩, hdefault, h⟩ := exists_of_bind h
        obtain ⟨out₁, hset, h⟩ := exists_of_bind h
        have htarget : target = partTarget withoutDefault part := by
          rw [withDefault_target hdefault, partTarget, hrest, Option.getD_none]
        rw [htarget] at hset
        refine ((hbind _ _ _ _ _ hset).trans (ih h)).imp (fun hclear => ?_) fun _ => rfl
        rw [restIsLast, hrest] at hclear
        obtain ⟨hlast, hall⟩ := hclear
        exact ⟨(List.forall_mem_cons.1 hall).1, hlast, (List.forall_mem_cons.1 hall).2⟩

end

/-- **A clear pattern that can be bound binds its targets.**  The induction is on the levels of
brackets. -/
theorem bindPattern_names {s : Scope} {levels : Nat} {value : Value} {out out' : Bindings}
    (h : bindPattern s levels label pattern value out = .ok out') :
    Sets out out' (isClear levels pattern = true) (targets levels pattern) := by
  induction levels generalizing label pattern value out out' with
  | zero => cases h
  | succ levels ih =>
    have hbind : ∀ label pattern value out out',
        bindPattern s levels label pattern value out = .ok out' →
          Sets out out' (isClear levels pattern = true) (targets levels pattern) :=
      fun _ _ _ _ _ h => ih h
    rw [bindPattern] at h
    split at h
    · rename_i body heq
      rw [targets_brace heq]
      refine (bindObject_names hbind (targets_nil levels) h).imp (fun hclear => ?_) fun hclear => ?_
      all_goals
        rw [isClear, heq] at hclear
        simp only [Bool.and_eq_true, List.all_eq_true, Bool.not_eq_true'] at hclear
      · exact partsOf_of_isClosed hclear.1 ▸ hclear.2
      · rw [partsOf_of_isClosed hclear.1]
    · rename_i body heq
      rw [targets_bracket heq]
      refine (bindArray_names hbind (targets_nil levels) h).imp (fun hclear => ?_) fun hclear => ?_
      all_goals
        rw [isClear, heq] at hclear
        simp only [Bool.and_eq_true, List.all_eq_true] at hclear
      · exact partsOf_of_isClosed hclear.1.1 ▸ ⟨hclear.1.2, hclear.2⟩
      · rw [partsOf_of_isClosed hclear.1.1]
    · split at h
      · rename_i hname
        cases h
        rw [targets_name hname]
        exact ⟨[(String.ofList (trim pattern), value)], rfl, fun _ => rfl⟩
      · cases h

end Scope

end Script
end Atoll
