import Atoll.Proofs.Annotations
import Atoll.Proofs.LateBinding

/-!
# Default values of an object pattern

A pattern is taken apart by marks: commas between its entries, the colon behind a key, the equals
sign in front of a default value.  The default values are expressions and may hold such marks
themselves.

* `findTop?_append`, `splitCommas_append` — marks are found part by part.
* `isBalanced`, `bracketLength_balanced` — a balanced text does not close the pattern around it.
* `PatternEntry`, `PatternEntry.received` — the entries of a pattern, and what each one takes from
  an object.
* `Scope.bindObject_entry`, `Scope.bindObject_entries` — **each entry binds its target to what it
  receives**, one step and all of them.
* `Scope.execute_defaults` — the result for a declaration.
-/

set_option autoImplicit false

namespace Atoll

/-! ## Names set in two steps -/

section

variable {α : Type}

/-- Where no name stands twice, it does not matter from which end it is looked up. -/
theorem lookup_reverse {entries : List (String × α)} (h : (entries.map Prod.fst).Nodup)
    (x : String) : entries.reverse.lookup x = entries.lookup x := by
  induction entries with
  | nil => rfl
  | cons entry entries ih =>
    obtain ⟨key, a⟩ := entry
    obtain ⟨hnot, hrest⟩ := List.nodup_cons.1 h
    rw [List.reverse_cons, List.lookup_append, ih hrest]
    by_cases hx : x = key
    · subst hx
      have hnone : entries.lookup x = none := by
        refine List.lookup_eq_none_iff.2 fun other hother => bne_iff_ne.2 ?_
        rintro rfl
        exact hnot (List.mem_map.2 ⟨other, hother, rfl⟩)
      rw [hnone, Option.none_or]
      simp
    · simp [List.lookup_cons, beq_false_of_ne hx]

/-- Names that are collected first are set like names that are set one after the other. -/
theorem lookup_setEntries_collected (entries new : List (String × α)) (x : String) :
    (setEntries entries (setEntries [] new)).lookup x = (setEntries entries new).lookup x := by
  have hnodup : ((setEntries [] new).map Prod.fst).Nodup := nodup_keys_setEntries List.nodup_nil
  rw [lookup_setEntries, lookup_reverse hnodup, lookup_setEntries, lookup_setEntries]
  simp

/-- A name has the value that it is set to, until it is set again. -/
theorem lookup_setEntries_getElem? {names : List (String × α)} {i : Nat} {x : String} {a : α}
    (h : names[i]? = some (x, a)) (hlater : x ∉ (names.drop (i + 1)).map Prod.fst)
    (entries : List (String × α)) : (setEntries entries names).lookup x = some a := by
  obtain ⟨hi, hget⟩ := List.getElem?_eq_some_iff.1 h
  have hsplit : names = names.take i ++ (x, a) :: names.drop (i + 1) := by
    rw [← hget, ← List.drop_eq_getElem_cons hi, List.take_append_drop]
  rw [hsplit, setEntries_append]
  show (setEntries (setEntry x a (setEntries entries (names.take i)))
    (names.drop (i + 1))).lookup x = some a
  rw [lookup_setEntries_of_notMem hlater, lookup_setEntry, if_pos rfl]

end

namespace Script

open Text

variable {default? : Option (List Char)} {s x : List Char} {v : Value} {c : Char} {n : Nesting}
  {label : Label} {members : Entries}

/-! ## Marks of a text, part by part -/

theorem marked_append (n : Nesting) (s t : List Char) :
    marked n (s ++ t) = marked n s ++ marked (n.after s) t := by
  induction s generalizing n with
  | nil => rfl
  | cons c cs ih => exact congrArg ((c, n.atTop c) :: ·) (ih (n.next c))

theorem length_marked (n : Nesting) (s : List Char) : (marked n s).length = s.length := by
  have hfst := congrArg List.length (map_fst_marked n s)
  rwa [List.length_map] at hfst

/-- The first mark of two texts is that of the first one, if there is one. -/
theorem findTop?_append (c : Char) (hs : EndsOutermost s) (t : List Char) :
    findTop? c (s ++ t) = (findTop? c s).or ((findTop? c t).map (· + s.length)) := by
  rw [findTop?, topLevel, marked_append, hs, List.findIdx?_append, length_marked]
  rfl

theorem findTop?_of_notMem (h : c ∉ s) : findTop? c s = none := by
  refine List.findIdx?_eq_none_iff.2 fun m hm => ?_
  have hmem : m.1 ∈ s := by
    rw [← map_fst_marked .outermost s]
    exact List.mem_map_of_mem hm
  have hne : (m.1 == c) = false := beq_eq_false_iff_ne.2 fun heq => h (heq ▸ hmem)
  show (m.2 && m.1 == c) = false
  rw [hne, Bool.and_false]

theorem findTop?_of_append {t : List Char} (h : findTop? c (s ++ t) = none) :
    findTop? c s = none := by
  rw [findTop?, topLevel, marked_append, List.findIdx?_append, Option.or_eq_none_iff] at h
  exact h.1

/-- A text without marks is one piece. -/
theorem splitMarked_of_forall {m : List (Char × Bool)}
    (h : ∀ x ∈ m, (x.2 && x.1 == c) = false) : splitMarked c m = [m.map Prod.fst] ∧
      ∀ rest, splitMarked c (m ++ (c, true) :: rest) = m.map Prod.fst :: splitMarked c rest := by
  induction m with
  | nil => exact ⟨rfl, fun rest => by simp [splitMarked]⟩
  | cons x m ih =>
    rw [List.forall_mem_cons] at h
    obtain ⟨hone, hmany⟩ := ih h.2
    refine ⟨?_, fun rest => ?_⟩
    · simp [splitMarked, h.1, hone]
    · simp [splitMarked, h.1, hmany]

section

variable {s : List Char} (hcomma : topComma .outermost s = false)
include hcomma

theorem splitCommas_eq_self : splitCommas s = [s] := by
  have hsplit := (splitMarked_of_forall fun x hx => by
    simpa using List.any_eq_false.1 hcomma x hx).1
  rw [splitCommas, topLevel, hsplit, map_fst_marked]

theorem splitCommas_append (hs : EndsOutermost s) (t : List Char) :
    splitCommas (s ++ ',' :: t) = s :: splitCommas t := by
  have hsplit := (splitMarked_of_forall fun x hx => by
    simpa using List.any_eq_false.1 hcomma x hx).2 (marked .outermost t)
  have hmark : marked .outermost (',' :: t) = (',', true) :: marked .outermost t := rfl
  rw [splitCommas, topLevel, marked_append, hs, hmark, hsplit, map_fst_marked]
  rfl

end

/-! ## Balanced texts -/

/-- Whether a text closes what it opens, and no more. -/
def isBalancedFrom (n : Nesting) : List Char → Bool
  | [] => n == .outermost
  | c :: cs => !(n.inside == .code && isClosing c && n.depth == 0) && isBalancedFrom (n.next c) cs

/-- Whether brackets and quotes are balanced in a text. -/
def isBalanced (s : List Char) : Bool :=
  isBalancedFrom .outermost s

theorem after_of_isBalancedFrom (h : isBalancedFrom n s = true) : n.after s = .outermost := by
  induction s generalizing n with
  | nil => exact eq_of_beq h
  | cons c cs ih =>
    rw [isBalancedFrom, Bool.and_eq_true] at h
    exact ih h.2

theorem isBalancedFrom_append (hs : isBalancedFrom n s = true)
    (t : List Char) : isBalancedFrom n (s ++ t) = isBalanced t := by
  induction s generalizing n with
  | nil => rw [eq_of_beq hs]; rfl
  | cons c cs ih =>
    rw [isBalancedFrom, Bool.and_eq_true] at hs
    rw [List.cons_append, isBalancedFrom, hs.1, ih hs.2, Bool.true_and]

theorem isBalanced_ordinary (h : ∀ c ∈ s, isOrdinary c = true) : isBalanced s = true := by
  induction s with
  | nil => rfl
  | cons c cs ih =>
    rw [List.forall_mem_cons] at h
    have hnext := Nesting.after_ordinary (w := [c]) (by simpa using h.1) 0
    have hclosing : isClosing c = false := by
      have hc := h.1
      simp only [isOrdinary, Bool.not_eq_true', Bool.or_eq_false_iff] at hc
      exact hc.1.2
    rw [isBalanced, isBalancedFrom, hclosing]
    simp only [Bool.and_false, Bool.false_and, Bool.not_false, Bool.true_and]
    exact (congrArg (isBalancedFrom · cs) hnext).trans (ih h.2)

/-- The nesting inside some more brackets. -/
def Nesting.deeper (k : Nat) (n : Nesting) : Nesting :=
  ⟨n.depth + k, n.inside⟩

theorem Nesting.next_deeper (h : (n.inside == .code && isClosing c && n.depth == 0) = false)
    (k : Nat) : (n.deeper k).next c = (n.next c).deeper k := by
  obtain ⟨depth, inside⟩ := n
  have hdepth : isClosing c = true → inside = .code → depth - 1 + k = depth + k - 1 := by
    intro hclosing hinside
    have hpos : depth ≠ 0 := by simpa [hclosing, hinside] using h
    omega
  have hnext : ∀ d, Nesting.next ⟨d, inside⟩ c = ⟨if inside == .code && isOpening c then d + 1
      else if inside == .code && isClosing c then d - 1 else d, inside.next c⟩ := fun _ => rfl
  rw [deeper, hnext, hnext, deeper]
  by_cases hopening : (inside == .code && isOpening c) = true
  · simp only [if_pos hopening, Nat.add_right_comm]
  · by_cases hclosing : (inside == .code && isClosing c) = true
    · have hboth := hclosing
      rw [Bool.and_eq_true, beq_iff_eq] at hboth
      simp only [if_neg hopening, if_pos hclosing, hdepth hboth.2 hboth.1]
    · simp only [if_neg hopening, if_neg hclosing]

/-- **A balanced text does not close the bracket around it.** -/
theorem bracketLength_balanced (h : isBalancedFrom n s = true) (k : Nat)
    (t : List Char) : bracketLength (n.deeper (k + 1)) (s ++ t) =
      s.length + bracketLength ⟨k + 1, .code⟩ t := by
  induction s generalizing n with
  | nil =>
    rw [eq_of_beq h, List.length_nil, Nat.zero_add, Nesting.deeper, Nesting.outermost, Nat.zero_add]
    rfl
  | cons c cs ih =>
    rw [isBalancedFrom, Bool.and_eq_true, Bool.not_eq_true'] at h
    have hopen : ((n.next c).deeper (k + 1)).depth ≠ 0 := Nat.succ_ne_zero _
    rw [List.cons_append, bracketLength, Nesting.next_deeper h.1, beq_eq_false_iff_ne.2 hopen,
      Bool.and_false, if_neg Bool.false_ne_true, ih h.2, List.length_cons]
    omega

/-- A pattern in braces is read up to the brace that closes it. -/
theorem readsPattern_braces {body : List Char} (h : isBalanced body = true) :
    ReadsPattern ('{' :: (body ++ ['}'])) := by
  intro more _
  have hinner := bracketLength_balanced h 0 ('}' :: more)
  have hclose : bracketLength ⟨0 + 1, .code⟩ ('}' :: more) = 1 := rfl
  have hopen : bracketLength .outermost ('{' :: (body ++ '}' :: more)) =
      1 + bracketLength (Nesting.outermost.deeper (0 + 1)) (body ++ '}' :: more) := rfl
  have htext : '{' :: (body ++ ['}']) ++ more = '{' :: (body ++ '}' :: more) := by simp
  rw [htext, patternLength]
  show bracketLength .outermost ('{' :: (body ++ '}' :: more)) = _
  rw [hopen, hinner, hclose, List.length_cons, List.length_append, List.length_singleton]
  omega

/-! ## Parts between commas -/

/-- A balanced text with no comma outside of brackets and quotes, and nothing like a type clause. -/
structure IsPart (p : List Char) : Prop where
  balanced : isBalanced p = true
  comma : topComma .outermost p = false
  clause : hasClause p = false

section

variable {ps : List (List Char)} (hne : ps ≠ []) (h : ∀ p ∈ ps, IsPart p)
include hne h

/-- What holds of the last part with the text behind it, and of a part in front of others, holds of
parts with commas between them. -/
theorem intercalate_induction {motive : List (List Char) → List Char → Prop} {w : List Char}
    (last : ∀ p, IsPart p → motive [p] (p ++ w))
    (more : ∀ p ps text, IsPart p → motive ps text → motive (p :: ps) (p ++ ',' :: text)) :
    motive ps ([','].intercalate ps ++ w) := by
  induction ps with
  | nil => exact absurd rfl hne
  | cons p ps ih =>
    rw [List.forall_mem_cons] at h
    by_cases hps : ps = []
    · subst hps
      simpa using last p h.1
    · obtain ⟨q, qs, rfl⟩ := List.exists_cons_of_ne_nil hps
      simpa [List.intercalate_cons_cons] using more p _ _ h.1 (ih hps h.2)

theorem isBalanced_intercalate : isBalanced ([','].intercalate ps ++ [' ']) = true := by
  refine intercalate_induction (motive := fun _ text => isBalanced text = true) hne h ?_ ?_
  · intro p hp
    rw [isBalanced, isBalancedFrom_append hp.balanced]
    rfl
  · intro p ps text hp ih
    rw [isBalanced, isBalancedFrom_append hp.balanced]
    exact ih

theorem hasClause_intercalate : hasClause ([','].intercalate ps ++ [' ', '}']) = false := by
  refine intercalate_induction (motive := fun _ text => hasClause text = false) hne h ?_ ?_
  · intro p hp
    have hstops : Stops [' ', '}'] :=
      stops_blank rfl (stops_cons rfl (by decide +kernel) (by decide) [])
    rw [hasClause_append_stops hstops, hp.clause]
    rfl
  · intro p ps text hp ih
    have hstops : Stops (',' :: text) := stops_cons rfl (by decide +kernel) (by decide) text
    rw [hasClause_append_stops hstops, hp.clause, hasClause_cons rfl, ih]
    rfl

theorem splitCommas_intercalate :
    (splitCommas ([','].intercalate ps ++ [' '])).map trim = ps.map trim := by
  refine intercalate_induction
    (motive := fun ps text => (splitCommas text).map trim = ps.map trim) hne h ?_ ?_
  · intro p hp
    have hends : EndsOutermost p := after_of_isBalancedFrom hp.balanced
    have hcomma : topComma .outermost (p ++ [' ']) = false := by
      rw [topComma, marked_append, List.any_append, hends, ← topComma, hp.comma]
      rfl
    rw [splitCommas_eq_self hcomma, List.map_singleton, List.map_singleton,
      trim_append_blank (List.forall_mem_singleton.2 rfl)]
  · intro p ps text hp ih
    rw [splitCommas_append hp.comma (after_of_isBalancedFrom hp.balanced), List.map_cons, ih,
      List.map_cons]

end

/-! ## The declaration of a pattern -/

section

variable {body : List Char} (hbalanced : isBalanced body = true)
  (hclause : hasClause (' ' :: '{' :: (body ++ ['}'])) = false)
include hbalanced hclause

/-- A pattern in braces is declared as it is written. -/
theorem declaredBy_braces :
    Scope.declaredBy (String.ofList ("const".toList ++ ' ' :: '{' ::
      (body ++ '}' :: " = o".toList))) =
        [⟨String.ofList ('{' :: (body ++ ['}'])), "o"⟩] := by
  have hword : "const" ∈ declarationWords := by simp [declarationWords]
  have hend : trimEnd ('{' :: (body ++ ['}'])) = '{' :: (body ++ ['}']) :=
    trimEnd_concat rfl ('{' :: body)
  have hlisted : Listed (fun t => EndsOutermost (withoutClauses t))
      [⟨'{' :: (body ++ ['}']), none, some " o".toList⟩] := by
    refine .last ⟨readsPattern_braces hbalanced, ⟨'{', rfl, rfl⟩, hend, hclause, ?_, ?_⟩
    · rintro t ⟨⟩
    · rintro e ⟨⟩
      exact ⟨rfl, by decide, by decide, by decide +kernel⟩
  have htidy : Declarator.IsTidy ⟨String.ofList ('{' :: (body ++ ['}'])), "o"⟩ := by
    refine ⟨⟨⟨'{', by simp, rfl⟩, ?_⟩, ?_, show trim "o".toList = "o".toList from rfl,
      show topComma .outermost "o".toList = false from rfl⟩
    · rw [String.toList_ofList]
      exact hend
    · rw [String.toList_ofList]
      exact readsPattern_braces hbalanced
  have hsettled := Settled.last htidy
  have hfound := declaration?_word hword (List.cons_ne_nil ' ' [])
    (by simp [show isBlank ' ' = true from rfl]) hsettled.trimStart_textOf
  have hjoined : joined [⟨'{' :: (body ++ ['}']), none, some " o".toList⟩] =
      '{' :: (body ++ '}' :: " = o".toList) := by
    simp [joined, Written.text, Written.tail]
  have hdeclarator : Written.declarator ⟨'{' :: (body ++ ['}']), none, some " o".toList⟩ =
      ⟨String.ofList ('{' :: (body ++ ['}'])), "o"⟩ := rfl
  have hplain := plain?_listed hword hlisted
  rw [hjoined, List.map_singleton, hdeclarator] at hplain
  have htext : ("const" ++ " " ++ ", ".intercalate [Declarator.text
      ⟨String.ofList ('{' :: (body ++ ['}'])), "o"⟩]).toList =
        "const".toList ++ ([' '] ++ textOf [⟨String.ofList ('{' :: (body ++ ['}'])), "o"⟩]) := by
    simp [textOf]
  rw [declaredBy_of_plain? hplain, htext, hfound, Option.map_some, Option.getD_some,
    hsettled.declarators_textOf]

end

/-! ## Entries -/

/-- An entry of an object pattern: a key, maybe a name to bind in its place, and maybe a default
value. -/
structure PatternEntry where
  key : String
  target? : Option String
  default? : Option String

variable {es : List PatternEntry}

/-- A target with the colon in front of it. -/
def targetText (target? : Option (List Char)) : List Char :=
  target?.elim [] (':' :: ' ' :: ·)

/-- A default value with the sign in front of it. -/
def defaultText (default? : Option (List Char)) : List Char :=
  default?.elim [] (' ' :: '=' :: ' ' :: ·)

/-- The text of an entry in characters. -/
def entryChars (key : List Char) (target? default? : Option (List Char)) : List Char :=
  key ++ (targetText target? ++ defaultText default?)

theorem isOrdinary_of_isName (hx : Scope.isName x = true) :
    ∀ c ∈ x, isOrdinary c = true ∧ c ≠ ':' ∧ c ≠ '=' := by
  have hrest : ∀ c, isNameRest c = true → isOrdinary c = true ∧ c ≠ ':' ∧ c ≠ '=' := by
    intro c hc
    refine ⟨isOrdinary_of (by decide +kernel) hc, ?_, ?_⟩
    · rintro rfl
      exact absurd hc (by decide +kernel)
    · rintro rfl
      exact absurd hc (by decide +kernel)
  have hstart : ∀ c, isNameStart c = true → isOrdinary c = true ∧ c ≠ ':' ∧ c ≠ '=' := by
    intro c hc
    refine ⟨isOrdinary_of (by decide +kernel) hc, ?_, ?_⟩
    · rintro rfl
      exact absurd hc (by decide +kernel)
    · rintro rfl
      exact absurd hc (by decide +kernel)
  obtain ⟨c, cs, rfl, hc, hcs⟩ := exists_of_isName hx
  exact List.forall_mem_cons.2 ⟨hstart c hc, fun d hd => hrest d (hcs d hd)⟩

/-- What stands in for undefined. -/
def orDefault (default : Except Expr.Fault Value) : Value → Except Expr.Fault Value
  | .undefined => default
  | v => .ok v

theorem orDefault_undefined (v : Value) : orDefault (.ok .undefined) v = .ok v := by
  cases v <;> rfl

theorem orDefault_mono {d d' : Except Expr.Fault Value} (hd : ∀ w, d = .ok w → d' = .ok w)
    {w : Value} (h : orDefault d v = .ok w) : orDefault d' v = .ok w := by
  cases v
  case undefined => exact hd w h
  all_goals exact h

namespace PatternEntry

/-- The name that an entry binds. -/
def target (e : PatternEntry) : String :=
  e.target?.getD e.key

/-- The text of an entry. -/
def text (e : PatternEntry) : String :=
  e.key ++ e.target?.elim "" (": " ++ ·) ++ e.default?.elim "" (" = " ++ ·)

/-- Names for the key and the target, and an expression with balanced brackets and quotes. -/
structure IsEntry (e : PatternEntry) : Prop where
  key : Scope.isName e.key.toList = true
  target : ∀ t ∈ e.target?, Scope.isName t.toList = true
  default : ∀ d ∈ e.default?, (∃ tree, Expr.parse d = .ok tree) ∧ isBalanced d.toList = true

/-- A default value in which nothing is taken for a mark of the pattern: nothing in it looks like a
type clause, there is no template in a template, unless no comma comes out of that one, and it has a
colon of its own only behind another colon. -/
structure IsClear (e : PatternEntry) : Prop where
  clause : ∀ d ∈ e.default?, hasClause (' ' :: d.toList) = false
  comma : ∀ d ∈ e.default?, Expr.hasPlainTemplates d = true ∨ topComma .outermost d.toList = false
  colon : e.target? = none → ∀ d ∈ e.default?, findTop? ':' d.toList = none

/-- What an entry takes from the members of an object: what is there under its key, and for
undefined its default value. -/
def received (s : Scope) (label : Label) (members : Entries) (e : PatternEntry) :
    Except Expr.Fault Value :=
  orDefault (e.default?.elim (.ok .undefined) (s.evaluate label))
    ((Entries.get? members e.key).getD .undefined)

/-- The text of an entry with a blank in front. -/
def chunk (e : PatternEntry) : List Char :=
  ' ' :: entryChars e.key.toList (e.target?.map String.toList) (e.default?.map String.toList)

theorem chunk_eq (e : PatternEntry) : e.chunk = ' ' :: e.text.toList := by
  obtain ⟨key, target?, default?⟩ := e
  cases target? <;> cases default? <;> simp [chunk, text, entryChars, targetText, defaultText]

/-- The chunk up to the default value, and the default value. -/
def lead (e : PatternEntry) : List Char :=
  ' ' :: entryChars e.key.toList (e.target?.map String.toList) (e.default?.map fun _ => [])

theorem chunk_eq_lead (e : PatternEntry) :
    e.chunk = e.lead ++ (e.default?.map String.toList).getD [] := by
  obtain ⟨key, target?, default?⟩ := e
  cases default? <;> simp [chunk, lead, entryChars, defaultText]

variable {e : PatternEntry} (h : e.IsEntry)
include h

theorem IsEntry.isOrdinary_lead : ∀ c ∈ e.lead, isOrdinary c = true := by
  have hkey := fun c hc => (isOrdinary_of_isName h.key c hc).1
  have htarget : ∀ c ∈ targetText (e.target?.map String.toList), isOrdinary c = true := by
    cases htarget : e.target? with
    | none => simp [targetText]
    | some t =>
      have ht := fun c hc => (isOrdinary_of_isName (h.target t htarget) c hc).1
      exact List.forall_mem_cons.2 ⟨rfl, List.forall_mem_cons.2 ⟨rfl, ht⟩⟩
  have hdefault : ∀ c ∈ defaultText (e.default?.map fun _ => []), isOrdinary c = true := by
    cases e.default? with
    | none => simp [defaultText]
    | some d => exact List.all_eq_true.1 rfl
  rw [lead, entryChars]
  exact List.forall_mem_cons.2 ⟨rfl, List.forall_mem_append.2 ⟨hkey,
    List.forall_mem_append.2 ⟨htarget, hdefault⟩⟩⟩

theorem IsEntry.isBalanced_chunk : isBalanced e.chunk = true := by
  rw [chunk_eq_lead, isBalanced, isBalancedFrom_append (isBalanced_ordinary h.isOrdinary_lead)]
  cases hdefault : e.default? with
  | none => rfl
  | some d => exact (h.default d hdefault).2

theorem IsEntry.topComma_chunk (hclear : e.IsClear) : topComma .outermost e.chunk = false := by
  rw [chunk_eq_lead, Nesting.outermost, topComma_append h.isOrdinary_lead]
  cases hdefault : e.default? with
  | none => rfl
  | some d =>
    obtain ⟨⟨tree, hparse⟩, -⟩ := h.default d hdefault
    exact (hclear.comma d hdefault).elim (topComma_of_parse hparse) id

theorem IsEntry.hasClause_chunk (hclear : e.IsClear) : hasClause e.chunk = false := by
  obtain ⟨hstops, hfree⟩ : Stops (defaultText (e.default?.map String.toList)) ∧
      hasClause (defaultText (e.default?.map String.toList)) = false := by
    cases hdefault : e.default? with
    | none => exact ⟨stops_nil, rfl⟩
    | some d =>
      have hequals : Stops ('=' :: ' ' :: d.toList) :=
        stops_cons rfl (by decide +kernel) (by decide) _
      refine ⟨stops_equals _, ?_⟩
      have hsign : hasClause ('=' :: ' ' :: d.toList) = hasClause (' ' :: d.toList) :=
        hasClause_cons rfl _
      have hsplit := hasClause_append_stops hequals [' ']
      rw [hsign, hclear.clause d hdefault] at hsplit
      exact hsplit
  obtain ⟨hstops', hfree'⟩ : Stops (targetText (e.target?.map String.toList) ++
      defaultText (e.default?.map String.toList)) ∧
      hasClause (targetText (e.target?.map String.toList) ++
        defaultText (e.default?.map String.toList)) = false := by
    cases htarget : e.target? with
    | none => exact ⟨hstops, hfree⟩
    | some t =>
      refine ⟨stops_cons rfl (by decide +kernel) (by decide) _, ?_⟩
      have hsplit := hasClause_append_stops hstops (' ' :: t.toList)
      rw [hasClause_name (isBlank_of_isName (h.target t htarget)), hfree] at hsplit
      exact (hasClause_cons rfl _).trans hsplit
  have hsplit := hasClause_append_stops hstops' (' ' :: e.key.toList)
  rw [hasClause_name (isBlank_of_isName h.key), hfree'] at hsplit
  exact hsplit

/-- Only blanks behind the default value are lost with the blanks around an entry. -/
theorem IsEntry.trim_chunk : trim e.chunk = entryChars e.key.toList (e.target?.map String.toList)
    (e.default?.map fun d => trimEnd d.toList) := by
  have hname : ∀ {x : List Char}, Scope.isName x = true → trimEnd x = x := by
    intro x hx
    rw [← trim_eq_self (isBlank_of_isName hx), trim, trimEnd_trimEnd]
  have hstart : trimStart e.chunk = entryChars e.key.toList (e.target?.map String.toList)
      (e.default?.map String.toList) := by
    obtain ⟨c, cs, hkey, -⟩ := exists_of_isName h.key
    have hc := isBlank_of_isName h.key c (by rw [hkey]; exact List.mem_cons_self)
    rw [chunk, entryChars, hkey]
    exact trimStart_of_head hc _
  rw [trim, hstart]
  cases hdefault : e.default? with
  | some d =>
    obtain ⟨⟨tree, hparse⟩, -⟩ := h.default d hdefault
    have hne : trimEnd d.toList ≠ [] := by
      intro hnil
      have htrim := trim_ne_nil_of_parse hparse
      rw [← trim_trimEnd, hnil] at htrim
      exact htrim rfl
    have happend := trimEnd_append hne
      (e.key.toList ++ (targetText (e.target?.map String.toList) ++ [' ', '=', ' ']))
    simpa [entryChars, defaultText] using happend
  | none =>
    cases htarget : e.target? with
    | none => simpa [entryChars, targetText, defaultText] using hname h.key
    | some t =>
      have ht := hname (h.target t htarget)
      have hne : trimEnd t.toList ≠ [] := by
        rw [ht]
        rintro hnil
        have hempty := h.target t htarget
        rw [hnil] at hempty
        cases hempty
      have happend := trimEnd_append hne (e.key.toList ++ [':', ' '])
      rw [ht] at happend
      simpa [entryChars, targetText, defaultText] using happend

/-- Blanks behind the default value do not count. -/
theorem IsEntry.received_trimEnd {s : Scope} (hv : e.received s label members = .ok v) :
    orDefault ((e.default?.map fun d => trimEnd d.toList).elim (.ok .undefined) fun d =>
      s.evaluate label (String.ofList (trim d))) ((Entries.get? members e.key).getD .undefined) =
      .ok v := by
  refine orDefault_mono (fun w hw => ?_) hv
  cases hdefault : e.default? with
  | none => rwa [hdefault] at hw
  | some d =>
    obtain ⟨⟨tree, hparse⟩, -⟩ := h.default d hdefault
    rw [hdefault, Option.elim] at hw
    rw [Option.map_some, Option.elim, trim_trimEnd]
    rcases s.evaluate_strip label hparse with ⟨v', hok, hstrip⟩ | ⟨f, g, herror, -⟩ |
      ⟨fault, -, herror, -⟩
    · cases hw.symm.trans hok
      exact hstrip
    · cases hw.symm.trans herror
    · cases hw.symm.trans herror

end PatternEntry

/-! ## Reading an entry -/

theorem endsOutermost_of_isName (hx : Scope.isName x = true) : EndsOutermost x :=
  Nesting.after_ordinary (fun c hc => (isOrdinary_of_isName hx c hc).1) 0

namespace Scope

/-- A name is its own key. -/
theorem keyText_name (hx : isName x = true) : keyText x = String.ofList x := by
  have hdrop : ∀ {t : List Char}, (∀ c ∈ t, isOrdinary c = true) →
      t.dropWhile (fun c => c == '"' || c == '\'') = t := by
    intro t ht
    cases t with
    | nil => rfl
    | cons c cs =>
      refine List.dropWhile_cons_of_neg fun hmark => ?_
      have hc := ht c List.mem_cons_self
      rw [Bool.or_eq_true, beq_iff_eq, beq_iff_eq] at hmark
      rcases hmark with rfl | rfl
      · cases hc
      · cases hc
  have hx' := fun c hc => (isOrdinary_of_isName hx c hc).1
  have hreverse : ∀ c ∈ x.reverse, isOrdinary c = true := fun c hc => hx' c (List.mem_reverse.1 hc)
  rw [keyText, trim_eq_self (isBlank_of_isName hx), hdrop hx', hdrop hreverse,
    List.reverse_reverse]

section

variable {key : List Char} (hkey : isName key = true)
include hkey

/-- A key that is its own target is read up to the end of its name, if no colon stands in its
default value. -/
theorem keyAndTarget_key (hcolon : ∀ d ∈ default?, findTop? ':' d = none) :
    keyAndTarget (entryChars key none default?) =
      (String.ofList key, key ++ defaultText default?) := by
  have hnone : findTop? ':' (key ++ defaultText default?) = none := by
    have hfirst : findTop? ':' key = none :=
      findTop?_of_notMem fun hmem => (isOrdinary_of_isName hkey ':' hmem).2.1 rfl
    have hsecond : findTop? ':' (defaultText default?) = none := by
      cases default? with
      | none => rfl
      | some d =>
        have hsign : EndsOutermost [' ', '=', ' '] := rfl
        have hsplit := findTop?_append ':' hsign d
        rw [hcolon d rfl] at hsplit
        exact hsplit
    rw [findTop?_append ':' (endsOutermost_of_isName hkey), hfirst, hsecond]
    rfl
  have hlength : patternLength (key ++ defaultText default?) = key.length := by
    refine patternLength_name hkey fun c hc => ?_
    cases default? with
    | none => cases hc
    | some d =>
      cases hc
      decide +kernel
  rw [entryChars, targetText, Option.elim, List.nil_append, keyAndTarget, hnone]
  dsimp only
  rw [hlength, List.take_left]

/-- A target stands behind the first colon. -/
theorem keyAndTarget_colon (t : List Char) (default? : Option (List Char)) :
    keyAndTarget (entryChars key (some t) default?) =
      (String.ofList key, ' ' :: t ++ defaultText default?) := by
  have hfirst : findTop? ':' key = none :=
    findTop?_of_notMem fun hmem => (isOrdinary_of_isName hkey ':' hmem).2.1 rfl
  have hmark : ∀ more, findTop? ':' (':' :: more) = some 0 := fun more => rfl
  have hfound : findTop? ':' (key ++ ':' :: (' ' :: t ++ defaultText default?)) =
      some key.length := by
    rw [findTop?_append ':' (endsOutermost_of_isName hkey), hfirst, hmark, Option.none_or,
      Option.map_some, Nat.zero_add]
  have htext : entryChars key (some t) default? =
      key ++ ':' :: (' ' :: t ++ defaultText default?) := rfl
  rw [htext, keyAndTarget, hfound]
  dsimp only
  rw [List.take_left, keyText_name hkey]
  simp

end

/-- A default value stands behind the first equals sign, and is computed for undefined. -/
theorem withDefault_defaultText (s : Scope) (label : Label) {name front : List Char}
    (hname : isName name = true) (hfront : front = name ∨ front = ' ' :: name) {value : Value}
    (hv : orDefault (default?.elim (.ok .undefined) fun d =>
      s.evaluate label (String.ofList (trim d))) value = .ok v) :
    ∃ target, trim target = name ∧
      s.withDefault label (front ++ defaultText default?) value = .ok (target, v) := by
  have hblank : ∀ c ∈ [' '], isBlank c = true := List.forall_mem_singleton.2 rfl
  have hequals : '=' ∉ name := fun hmem => (isOrdinary_of_isName hname '=' hmem).2.2 rfl
  obtain ⟨htrim, hequals, hends⟩ : trim front = name ∧ '=' ∉ front ∧ EndsOutermost front := by
    have hself : trim name = name := trim_eq_self (isBlank_of_isName hname)
    rcases hfront with rfl | rfl
    · exact ⟨hself, hequals, endsOutermost_of_isName hname⟩
    · have hends : EndsOutermost name := endsOutermost_of_isName hname
      exact ⟨(trim_blank_append hblank name).trans hself,
        fun hmem => hequals ((List.mem_cons.1 hmem).resolve_left (by decide)), hends⟩
  cases default? with
  | none =>
    rw [Option.elim, orDefault_undefined] at hv
    cases hv
    rw [defaultText, Option.elim, List.append_nil]
    exact ⟨front, htrim, by rw [withDefault, findAssign?_eq_none hequals]⟩
  | some d =>
    have hassign := findAssign?_append hequals hends d
    have htake : (front ++ ' ' :: '=' :: ' ' :: d).take (front.length + 1) = front ++ [' '] := by
      simp [List.take_append]
    have hdrop : (front ++ ' ' :: '=' :: ' ' :: d).drop (front.length + 1 + 1) = [' '] ++ d := by
      rw [Nat.add_assoc, List.drop_length_add_append]
      rfl
    refine ⟨front ++ [' '], (trim_append_blank hblank front).trans htrim, ?_⟩
    rw [defaultText, Option.elim, withDefault, hassign]
    dsimp only
    rw [htake, hdrop, trim_blank_append hblank]
    cases value
    case undefined =>
      have hdefault : s.evaluate label (String.ofList (trim d)) = .ok v := hv
      rw [hdefault]
      rfl
    all_goals
      cases hv
      rfl

section

variable {e : PatternEntry} (h : e.IsEntry) (hclear : e.IsClear)
include h hclear

/-- The parts of an entry are found again. -/
theorem keyAndTarget_chunk : ∃ front,
    (front = e.target.toList ∨ front = ' ' :: e.target.toList) ∧ keyAndTarget (trim e.chunk) =
      (e.key, front ++ defaultText (e.default?.map fun d => trimEnd d.toList)) := by
  rw [h.trim_chunk, PatternEntry.target]
  cases htarget : e.target? with
  | some t =>
    refine ⟨' ' :: t.toList, .inr rfl, ?_⟩
    rw [Option.map_some, keyAndTarget_colon h.key, String.ofList_toList]
  | none =>
    refine ⟨e.key.toList, .inl rfl, ?_⟩
    have hcolon : ∀ d ∈ e.default?.map fun d => trimEnd d.toList, findTop? ':' d = none := by
      intro d' hd'
      obtain ⟨d, hd, rfl⟩ := Option.map_eq_some_iff.1 hd'
      obtain ⟨w, -, hw⟩ := exists_trimEnd_append d.toList
      have hnone := hclear.colon htarget d hd
      rw [hw] at hnone
      exact findTop?_of_append hnone
    rw [Option.map_none, keyAndTarget_key h.key hcolon, String.ofList_toList]

/-- **One entry binds its target to what it receives.** -/
theorem bindObject_entry {s : Scope} {l : Label} {i : Nat}
    (hv : e.received s (3 :: i :: label) members = .ok v) {part : List Char}
    (hpart : trim part = trim e.chunk) (fuel : Nat) (used : List String) (out : Bindings)
    (parts : List (List Char)) :
    bindObject s (bindPattern s (fuel + 1)) label (.object l members) i used out (part :: parts) =
      bindObject s (bindPattern s (fuel + 1)) label (.object l members) (i + 1) (e.key :: used)
        (setEntry e.target v out) parts := by
  obtain ⟨c, cs, hkey, hc, -⟩ := exists_of_isName h.key
  obtain ⟨more, htext⟩ : ∃ more, trim part = c :: more := by
    rw [hpart, h.trim_chunk, entryChars, hkey]
    exact ⟨_, rfl⟩
  have hrest : afterLiteral? "..." (trim part) = none := by
    have hdot : '.' ≠ c := by
      rintro rfl
      cases hc
    simp [htext, afterLiteral?, after?, List.isPrefixOf?, hdot]
  have hmember : Value.member (2 :: i :: label) (.object l members) (.string e.key) =
      .ok ((Entries.get? members e.key).getD .undefined) := rfl
  have hname : isName e.target.toList = true := by
    rw [PatternEntry.target]
    cases htarget : e.target? with
    | none => exact h.key
    | some t => exact h.target t htarget
  obtain ⟨front, hfront, hsplit⟩ := keyAndTarget_chunk h hclear
  obtain ⟨target, htrim, hdefault⟩ :=
    withDefault_defaultText s (3 :: i :: label) hname hfront (h.received_trimEnd hv)
  rw [bindObject]
  dsimp only
  rw [if_neg (by rw [htext]; exact Bool.false_ne_true), hrest]
  dsimp only
  rw [hpart, hsplit]
  dsimp only
  rw [hmember]
  show (s.withDefault _ _ _ >>= _) = _
  rw [hdefault]
  show (bindPattern s (fuel + 1) (4 :: i :: label) target v out >>= _) = _
  rw [bindPattern_trim s htrim hname, String.ofList_toList]
  rfl

end

/-- **All entries bind their targets**, one after the other. -/
theorem bindObject_entries {s : Scope} {l : Label} (fuel : Nat) (hentries : ∀ e ∈ es, e.IsEntry)
    (hclear : ∀ e ∈ es, e.IsClear) {i : Nat}
    (hvalues : ∀ (j : Nat) (e : PatternEntry), es[j]? = some e →
      ∃ v, e.received s (3 :: (i + j) :: label) members = .ok v) {parts : List (List Char)}
    (hparts : parts.map trim = es.map fun e => trim e.chunk) (used : List String) (out : Bindings) :
    ∃ names : Bindings,
      bindObject s (bindPattern s (fuel + 1)) label (.object l members) i used out parts =
        .ok (setEntries out names) ∧
      names.map Prod.fst = es.map PatternEntry.target ∧
      ∀ (j : Nat) (e : PatternEntry) (v : Value), es[j]? = some e →
        e.received s (3 :: (i + j) :: label) members = .ok v → names[j]? = some (e.target, v) := by
  induction es generalizing i used out parts with
  | nil =>
    rw [List.map_nil, List.map_eq_nil_iff] at hparts
    subst hparts
    exact ⟨[], rfl, rfl, by simp⟩
  | cons e es ih =>
    obtain ⟨part, parts, rfl, hpart, hparts⟩ := List.map_eq_cons_iff.1 hparts
    rw [List.forall_mem_cons] at hentries hclear
    obtain ⟨v, hv⟩ := hvalues 0 e rfl
    rw [Nat.add_zero] at hv
    -- the entries behind the first one are at the places from `i + 1` on
    have hplace : ∀ j, i + 1 + j = i + (j + 1) := fun j => by omega
    obtain ⟨names, hbound, htargets, hnames⟩ := ih hentries.2 hclear.2
      (fun j e' he' => by rw [hplace]; exact hvalues (j + 1) e' he') hparts (e.key :: used)
      (setEntry e.target v out)
    refine ⟨(e.target, v) :: names, ?_, by rw [List.map_cons, List.map_cons, htargets], ?_⟩
    · rw [bindObject_entry hentries.1 hclear.1 hv hpart, hbound]
      rfl
    · intro j e' v' he' hv'
      cases j with
      | zero =>
        cases he'
        cases hv.symm.trans hv'
        rfl
      | succ j => exact hnames j e' v' he' (by rw [hplace]; exact hv')

/-- The text between the braces of a pattern. -/
def betweenBraces (es : List PatternEntry) : String :=
  " " ++ ", ".intercalate (es.map PatternEntry.text) ++ " "

theorem toList_betweenBraces (h : es ≠ []) :
    (betweenBraces es).toList = [','].intercalate (es.map PatternEntry.chunk) ++ [' '] := by
  have hcommas : ' ' :: [',', ' '].intercalate (es.map fun e => e.text.toList) =
      [','].intercalate (es.map PatternEntry.chunk) := by
    induction es with
    | nil => exact absurd rfl h
    | cons e es ih =>
      cases es with
      | nil => simp [PatternEntry.chunk_eq]
      | cons e' es =>
        have hrest := ih (List.cons_ne_nil e' es)
        simp only [List.map_cons, List.intercalate_cons_cons] at hrest ⊢
        rw [← hrest, PatternEntry.chunk_eq]
        simp
  rw [← hcommas]
  simp [betweenBraces, String.toList_intercalate, Function.comp_def]

/-- The parts of a pattern; there is a blank one in a pattern without entries. -/
theorem exists_parts (hentries : ∀ e ∈ es, e.IsEntry)
    (hclear : ∀ e ∈ es, e.IsClear) : ∃ ps : List (List Char), ps ≠ [] ∧ (∀ p ∈ ps, IsPart p) ∧
      (betweenBraces es).toList = [','].intercalate ps ++ [' '] ∧
      (ps.map trim = es.map (fun e => trim e.chunk) ∨ es = [] ∧ ps.map trim = [[]]) := by
  by_cases hes : es = []
  · subst hes
    exact ⟨[[' ']], List.cons_ne_nil _ _,
      List.forall_mem_singleton.2 ⟨by decide, by decide, by decide +kernel⟩, rfl, .inr ⟨rfl, rfl⟩⟩
  · refine ⟨es.map PatternEntry.chunk, by simpa using hes, ?_, ?_, .inl (List.map_map ..)⟩
    · intro p hp
      obtain ⟨e, he, rfl⟩ := List.mem_map.1 hp
      exact ⟨(hentries e he).isBalanced_chunk, (hentries e he).topComma_chunk (hclear e he),
        (hentries e he).hasClause_chunk (hclear e he)⟩
    · exact toList_betweenBraces hes

theorem evaluate_o {s : Scope} (h : s.bindings.lookup "o" = some v) (label : Label) :
    s.evaluate label "o" = .ok v := by
  have hparse : Expr.parse "o" = .ok (.name "o") := Expr.whole_eq_ok (by cbv) rfl
  rw [evaluate_of_parse s label hparse, Expr.maxDepth, Expr.run, Expr.evalStep,
    s.lookup?_of_lookup h]
  rfl

/-- A statement that declares one pattern binds it to the value that it names. -/
theorem execute_o {s : Scope} (h : s.bindings.lookup "o" = some v) {statement : String}
    {pattern : List Char} (hdeclared : declaredBy statement = [⟨String.ofList pattern, "o"⟩])
    {names : Bindings}
    (hbound : bindPattern s.entered (pattern.length + 1) [1, 0, s.executed, 1, s.level] pattern v
      [] = .ok names) : s.execute statement = ⟨s.entered.bind names, [], none⟩ := by
  have hbinds : s.entered.bindDeclarator [0, s.executed, 1, s.level]
      ⟨String.ofList pattern, "o"⟩ = .ok names := by
    rw [bindDeclarator]
    show (s.entered.evaluate [0, 0, s.executed, 1, s.level] "o" >>= _) = _
    rw [evaluate_o (s := s.entered) h]
    show bindPattern s.entered ((String.ofList pattern).length + 1) [1, 0, s.executed, 1, s.level]
      (String.ofList pattern).toList v [] = _
    rw [String.length_ofList, String.toList_ofList, hbound]
  rw [execute, hdeclared]
  show executeDeclarators [s.executed, 1, s.level] s.entered 0 _ = _
  rw [executeDeclarators, declare, hbinds]
  rfl

section

variable {l : Label} {members : Entries} {es : List PatternEntry}
  (hentries : ∀ e ∈ es, e.IsEntry) (hclear : ∀ e ∈ es, e.IsClear)
include hentries hclear

theorem bindPattern_entries {s : Scope} (hvalues : ∀ (i : Nat) (e : PatternEntry), es[i]? = some e →
      ∃ v, e.received s (3 :: i :: label) members = .ok v) (fuel : Nat) :
    ∃ names : Bindings,
      bindPattern s (fuel + 2) label ('{' :: ((betweenBraces es).toList ++ ['}']))
        (.object l members) [] = .ok (setEntries [] names) ∧
      names.map Prod.fst = es.map PatternEntry.target ∧
      ∀ (i : Nat) (e : PatternEntry) (v : Value), es[i]? = some e →
        e.received s (3 :: i :: label) members = .ok v → names[i]? = some (e.target, v) := by
  obtain ⟨ps, hne, hparts, htext, hps⟩ := exists_parts hentries hclear
  have htrim : trim ('{' :: ((betweenBraces es).toList ++ ['}'])) =
      '{' :: ((betweenBraces es).toList ++ ['}']) :=
    trimEnd_concat rfl ('{' :: (betweenBraces es).toList)
  have hsplit := splitCommas_intercalate hne hparts
  rw [← htext] at hsplit
  have hbind : bindPattern s (fuel + 2) label ('{' :: ((betweenBraces es).toList ++ ['}']))
      (.object l members) [] =
        bindObject s (bindPattern s (fuel + 1)) label (.object l members) 0 [] []
          (splitCommas (betweenBraces es).toList) := by
    rw [bindPattern, htrim]
    show bindObject s (bindPattern s (fuel + 1)) label (.object l members) 0 [] []
      (splitCommas ((betweenBraces es).toList ++ ['}']).dropLast) = _
    rw [List.dropLast_concat]
  rw [hbind]
  rcases hps with hps | ⟨rfl, hps⟩
  · obtain ⟨names, hbound, htargets, hnames⟩ := bindObject_entries fuel hentries hclear
      (i := 0) (fun j e he => by rw [Nat.zero_add]; exact hvalues j e he) (hsplit.trans hps) [] []
    exact ⟨names, hbound, htargets, fun j e v he hv => hnames j e v he (by rwa [Nat.zero_add])⟩
  · -- the only part is blank and is passed over
    obtain ⟨part, parts, hcons, hblank, hnil⟩ := List.map_eq_cons_iff.1 (hsplit.trans hps)
    rw [List.map_eq_nil_iff] at hnil
    refine ⟨[], ?_, rfl, by simp⟩
    rw [hcons, hnil, bindObject]
    dsimp only
    rw [hblank]
    rfl

theorem declaredBy_betweenBraces :
    declaredBy ("const \x7b" ++ betweenBraces es ++ "\x7d = o") =
      [⟨String.ofList ('{' :: ((betweenBraces es).toList ++ ['}'])), "o"⟩] := by
  obtain ⟨ps, hne, hparts, htext, -⟩ := exists_parts hentries hclear
  have hbalanced := isBalanced_intercalate hne hparts
  rw [← htext] at hbalanced
  have hclause : hasClause (' ' :: '{' :: ((betweenBraces es).toList ++ ['}'])) = false := by
    have htail : (betweenBraces es).toList ++ ['}'] = [','].intercalate ps ++ [' ', '}'] := by
      rw [htext, List.append_assoc]
      rfl
    have hbrace : Stops ('{' :: ([','].intercalate ps ++ [' ', '}'])) :=
      stops_cons rfl (by decide +kernel) (by decide) _
    have hsplit := hasClause_append_stops hbrace [' ']
    rw [hasClause_cons (c := '{') rfl, hasClause_intercalate hne hparts] at hsplit
    rw [htail]
    exact hsplit
  have hstatement : "const \x7b" ++ betweenBraces es ++ "\x7d = o" =
      String.ofList ("const".toList ++ ' ' :: '{' ::
        ((betweenBraces es).toList ++ '}' :: " = o".toList)) :=
    String.toList_inj.1 (by simp)
  rw [hstatement, declaredBy_braces hbalanced hclause]

/-- **Default values are right, for every pattern of names**: after a declaration of a pattern, the
target of each entry is bound to what the entry receives from the object, where a default value is
evaluated in the scope before the declaration, and all else is bound as before. -/
theorem execute_defaults (s : Scope) (ho : s.bindings.lookup "o" = some (.object l members))
    (hvalues : ∀ (i : Nat) (e : PatternEntry), es[i]? = some e →
      ∃ v, e.received s [3, i, 1, 0, s.executed, 1, s.level] members = .ok v) :
    let done := s.execute ("const \x7b" ++ betweenBraces es ++ "\x7d = o")
    done.fault = none ∧ done.unbound = [] ∧
    (∀ (i : Nat) (e : PatternEntry) (v : Value), es[i]? = some e →
      e.received s [3, i, 1, 0, s.executed, 1, s.level] members = .ok v →
      (∀ later ∈ es.drop (i + 1), later.target ≠ e.target) →
      done.scope.bindings.lookup e.target = some v) ∧
    ∀ x, (∀ e ∈ es, e.target ≠ x) → done.scope.bindings.lookup x = s.bindings.lookup x := by
  -- the count of statements is raised first, which no evaluation sees
  obtain ⟨names, hbound, htargets, hnames⟩ := bindPattern_entries (s := s.entered) (l := l)
    hentries hclear hvalues ((betweenBraces es).toList.length + 1)
  have hlength : ('{' :: ((betweenBraces es).toList ++ ['}'])).length + 1 =
      (betweenBraces es).toList.length + 1 + 2 := by
    rw [List.length_cons, List.length_append]
    rfl
  rw [← hlength] at hbound
  have hdone := execute_o ho (declaredBy_betweenBraces hentries hclear) hbound
  have hlookup : ∀ x, (s.entered.bind (setEntries [] names)).bindings.lookup x =
      (setEntries s.bindings names).lookup x :=
    lookup_setEntries_collected s.bindings names
  rw [hdone]
  refine ⟨rfl, rfl, fun i e v he hv hlater => ?_, fun x hx => ?_⟩
  · have hnot : e.target ∉ (names.drop (i + 1)).map Prod.fst := by
      rw [List.map_drop, htargets, ← List.map_drop]
      intro hmem
      obtain ⟨later, hmem, htarget⟩ := List.mem_map.1 hmem
      exact hlater later hmem htarget
    rw [hlookup]
    exact lookup_setEntries_getElem? (hnames i e v he hv) hnot s.bindings
  · rw [hlookup]
    refine lookup_setEntries_of_notMem ?_ s.bindings
    rw [htargets]
    intro hmem
    obtain ⟨e, he, htarget⟩ := List.mem_map.1 hmem
    exact hx e he htarget

end

/-- Entries of all four kinds, with the marks of a pattern in the default values. -/
def mixedEntries : List PatternEntry :=
  [⟨"a", none, none⟩, ⟨"b", none, some "\x7b k: t, m: \"\x7d\" \x7d.m"⟩, ⟨"c", some "d", none⟩,
    ⟨"e", some "f", some "t === t ? \"x\" : o"⟩]

theorem execute_defaults_mixed :
    let s := ofNames [("t", .bool true), ("o", .object [] [(.string "c", .null)])]
    let done := s.execute ("const \x7b a, b = \x7b k: t, m: \"\x7d\" \x7d.m, c: d, " ++
      "e: f = t === t ? \"x\" : o \x7d = o")
    done.fault = none ∧ done.unbound = [] ∧
    done.scope.bindings.lookup "a" = some .undefined ∧
    done.scope.bindings.lookup "b" = some (.string "\x7d") ∧
    done.scope.bindings.lookup "d" = some .null ∧
    done.scope.bindings.lookup "f" = some (.string "x") ∧
    done.scope.bindings.lookup "t" = some (.bool true) := by
  intro s
  have hobject : Expr.parse "\x7b k: t, m: \"\x7d\" \x7d.m" = .ok (.member
      (.object [.pair (.literal (.string "k")) (.name "t"),
        .pair (.literal (.string "m")) (.literal (.string "\x7d"))])
      (.literal (.string "m")) false) := Expr.whole_eq_ok (by cbv) rfl
  have hchoice : Expr.parse "t === t ? \"x\" : o" = .ok (.conditional
      (.binary .strictEq (.name "t") (.name "t")) (.literal (.string "x")) (.name "o")) :=
    Expr.whole_eq_ok (by cbv) rfl
  have hentries : ∀ e ∈ mixedEntries, e.IsEntry := by
    simp only [mixedEntries, List.forall_mem_cons]
    refine ⟨⟨rfl, by simp, by simp⟩, ⟨rfl, by simp, ?_⟩, ⟨rfl, ?_, by simp⟩, ⟨rfl, ?_, ?_⟩, by simp⟩
    · rintro d ⟨⟩
      exact ⟨⟨_, hobject⟩, by decide⟩
    · rintro t ⟨⟩
      rfl
    · rintro t ⟨⟩
      rfl
    · rintro d ⟨⟩
      exact ⟨⟨_, hchoice⟩, by decide⟩
  have hclear : ∀ e ∈ mixedEntries, e.IsClear := by
    simp only [mixedEntries, List.forall_mem_cons]
    refine ⟨⟨by simp, by simp, by simp⟩, ⟨?_, ?_, ?_⟩, ⟨by simp, by simp, by simp⟩,
      ⟨?_, ?_, by simp⟩, by simp⟩
    · rintro d ⟨⟩
      decide +kernel
    · rintro d ⟨⟩
      exact .inr (by decide)
    · rintro - d ⟨⟩
      decide
    · rintro d ⟨⟩
      decide +kernel
    · rintro d ⟨⟩
      exact .inr (by decide)
  have hobjectValue : s.evaluate [3, 1, 1, 0, 0, 1, 0] "\x7b k: t, m: \"\x7d\" \x7d.m" =
      .ok (.string "\x7d") := by
    rw [evaluate_of_parse _ _ hobject]
    rfl
  have hchoiceValue : s.evaluate [3, 3, 1, 0, 0, 1, 0] "t === t ? \"x\" : o" =
      .ok (.string "x") := by
    rw [evaluate_of_parse _ _ hchoice]
    rfl
  have hvalues : ∀ (i : Nat) (e : PatternEntry), mixedEntries[i]? = some e →
      ∃ v, e.received s [3, i, 1, 0, s.executed, 1, s.level] [(.string "c", .null)] = .ok v := by
    intro i e he
    rcases i with - | - | - | - | i
    · cases he
      exact ⟨.undefined, rfl⟩
    · cases he
      exact ⟨_, hobjectValue⟩
    · cases he
      exact ⟨.null, rfl⟩
    · cases he
      exact ⟨_, hchoiceValue⟩
    · cases he
  have htext : "const \x7b a, b = \x7b k: t, m: \"\x7d\" \x7d.m, c: d, " ++
      "e: f = t === t ? \"x\" : o \x7d = o" =
        "const \x7b" ++ betweenBraces mixedEntries ++ "\x7d = o" := by
    cbv
  obtain ⟨hfault, hunbound, hbound, hkept⟩ := execute_defaults hentries hclear s rfl hvalues
  have ha := hbound 0 ⟨"a", none, none⟩ .undefined rfl rfl (by decide)
  have hb := hbound 1 _ _ rfl hobjectValue (by decide)
  have hd := hbound 2 ⟨"c", some "d", none⟩ .null rfl rfl (by decide)
  have hf := hbound 3 _ _ rfl hchoiceValue (by decide)
  rw [htext]
  exact ⟨hfault, hunbound, ha, hb, hd, hf, hkept "t" (by decide)⟩

set_option maxRecDepth 4000 in
/-- A conditional behind a key is cut at its colon, and a default value loses what looks like a type
clause. -/
theorem execute_defaults_misread :
    let s := ofNames [("t", .bool true), ("o", .object [] [])]
    let conditional : PatternEntry := ⟨"a", none, some "t ? \"x\" : \"y\""⟩
    let worded : PatternEntry := ⟨"a", none, some "\"x as const\""⟩
    conditional.IsEntry ∧ conditional.received s [3, 0, 1, 0, 0, 1, 0] [] = .ok (.string "x") ∧
    (s.execute "const \x7b a = t ? \"x\" : \"y\" \x7d = o").scope.bindings.lookup "a" = none ∧
    worded.IsEntry ∧ worded.received s [3, 0, 1, 0, 0, 1, 0] [] = .ok (.string "x as const") ∧
    (s.execute "const \x7b a = \"x as const\" \x7d = o").scope.bindings.lookup "a" =
      some (.string "x") := by
  intro s conditional worded
  have ho : Expr.parse "o" = .ok (.name "o") := Expr.whole_eq_ok (by cbv) rfl
  have hchoice : Expr.parse "t ? \"x\" : \"y\"" = .ok (.conditional (.name "t")
      (.literal (.string "x")) (.literal (.string "y"))) := Expr.whole_eq_ok (by cbv) rfl
  have hwords : Expr.parse "\"x as const\"" = .ok (.literal (.string "x as const")) :=
    Expr.whole_eq_ok (by cbv) rfl
  have hcut : declaredBy "const \x7b a = t ? \"x\" : \"y\" \x7d = o" =
      [⟨"\x7b a = t ? \"x\" : \"y\" \x7d", "o"⟩] := by
    decide +kernel
  have hlost : declaredBy "const \x7b a = \"x as const\" \x7d = o" =
      [⟨"\x7b a = \"x\" \x7d", "o"⟩] := by
    decide +kernel
  have ha : isName "a".toList = true := rfl
  refine ⟨⟨ha, by simp [conditional], ?_⟩, ?_, ?_, ⟨ha, by simp [worded], ?_⟩, ?_, ?_⟩
  · rintro d ⟨⟩
    exact ⟨⟨_, hchoice⟩, by decide⟩
  · show s.evaluate _ "t ? \"x\" : \"y\"" = _
    rw [evaluate_of_parse _ _ hchoice]
    rfl
  · rw [execute, hcut, executeDeclarators, declare, bindDeclarator, evaluate_of_parse _ _ ho]
    cbv
  · rintro d ⟨⟩
    exact ⟨⟨_, hwords⟩, by decide⟩
  · show s.evaluate _ "\"x as const\"" = _
    rw [evaluate_of_parse _ _ hwords]
    rfl
  · rw [execute, hlost, executeDeclarators, declare, bindDeclarator, evaluate_of_parse _ _ ho]
    cbv

end Scope

end Script
end Atoll
