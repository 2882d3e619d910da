import Atoll.Proofs.Entries
import Atoll.Proofs.Trimming
import Atoll.Script.Scope

/-!
# A declaration binds a name to the value of an expression

`const x = e` passes through several readers before `e` is evaluated: the word for a type clause is
looked for in the whole text, and the text is cut at commas, twice.

* `hasClause` — whether a type clause could start somewhere in a text; `eraseFrom_eq_self`: what has
  none is not changed.
* `declarators_name` — a name with an expression behind it is one declarator.
* `declaredBy_const` — **the declaration of one name declares that name**, with the source of its
  value as it is written, up to blanks around it.
* `Scope.execute_const` — hence executing it binds the name to the value of the expression, and
  changes nothing if there is none.
-/

set_option autoImplicit false

namespace Atoll
namespace Script

open Text

variable {source : String} {s x : List Char}

/-! ## Type clauses -/

/-- Whether a type clause could start at some character of a text. -/
def hasClause : List Char → Bool
  | [] => false
  | c :: cs => (asConst? (c :: cs)).isSome || (satisfies? (c :: cs)).isSome || hasClause cs

theorem eraseFrom_eq_self (h : hasClause s = false) :
    eraseFrom asConst? 0 s = s ∧ eraseFrom satisfies? 0 s = s := by
  induction s with
  | nil => exact ⟨rfl, rfl⟩
  | cons c cs ih =>
    rw [hasClause, Bool.or_eq_false_iff, Bool.or_eq_false_iff, Option.isSome_eq_false_iff,
      Option.isSome_eq_false_iff, Option.isNone_iff_eq_none, Option.isNone_iff_eq_none] at h
    obtain ⟨⟨hconst, hsatisfies⟩, hcs⟩ := h
    rw [eraseFrom, hconst, eraseFrom, hsatisfies]
    exact ⟨congrArg (c :: ·) (ih hcs).1, congrArg (c :: ·) (ih hcs).2⟩

/-- A clause starts with a blank. -/
theorem hasClause_cons {c : Char} (hc : isBlank c = false) (cs : List Char) :
    hasClause (c :: cs) = hasClause cs := by
  simp [hasClause, asConst?, satisfies?, afterSpacedWord?, hc]

theorem hasClause_append (hs : ∀ c ∈ s, isBlank c = false) (rest : List Char) :
    hasClause (s ++ rest) = hasClause rest := by
  induction s with
  | nil => rfl
  | cons c cs ih =>
    rw [List.forall_mem_cons] at hs
    rw [List.cons_append, hasClause_cons hs.1, ih hs.2]

/-- The word in front of an equals sign is the whole name that stands there. -/
theorem afterWord?_name {word : String} (hword : ∀ c ∈ word.toList, isBlank c = false)
    (hx : ∀ c ∈ x, isBlank c = false) {rest r : List Char}
    (h : afterWord? word (x ++ ' ' :: '=' :: rest) = some r) : r = '=' :: rest := by
  have hfirst {s t : List Char} {b : Char} (hs : ∀ c ∈ s, isBlank c = false)
      (hb : isBlank b = true) : (s ++ b :: t).takeWhile (fun c => !isBlank c) = s :=
    takeWhile_append_stop (fun c hc => by simp [hs c hc]) (fun c hc => by cases hc; simp [hb])
  rw [afterWord?] at h
  split at h
  · rename_i c cs hafter
    split at h
    · rename_i hblank
      cases h
      have heq : word.toList ++ c :: cs = x ++ ' ' :: '=' :: rest :=
        List.isPrefixOf?_eq_some_iff_append_eq.1 hafter
      have hsame : word.toList = x := by
        rw [← hfirst hword hblank, heq]
        exact hfirst hx rfl
      rw [hsame] at heq
      cases List.append_cancel_left heq
      rfl
    · cases h
  · cases h

/-- No clause has an equals sign behind its word. -/
theorem clause_eq_none (h : ∀ word ∈ ["as", "satisfies"], ∀ r, afterSpacedWord? word s = some r →
      ∃ rest, r = '=' :: rest) : asConst? s = none ∧ satisfies? s = none := by
  constructor
  · rw [asConst?]
    cases hr : afterSpacedWord? "as" s with
    | none => rfl
    | some r =>
      obtain ⟨rest, rfl⟩ := h "as" (by simp) r hr
      rfl
  · rw [satisfies?]
    cases hr : afterSpacedWord? "satisfies" s with
    | none => rfl
    | some r =>
      obtain ⟨rest, rfl⟩ := h "satisfies" (by simp) r hr
      rfl

/-- No clause starts between the word of a declaration and its equals sign. -/
theorem hasClause_declaration (hne : x ≠ []) (hx : ∀ c ∈ x, isBlank c = false) (rest : List Char) :
    hasClause ("const".toList ++ ' ' :: (x ++ ' ' :: '=' :: rest)) = hasClause rest := by
  have hspace : isBlank ' ' = true := rfl
  have hname := clause_eq_none (s := ' ' :: (x ++ ' ' :: '=' :: rest)) fun word hword r hr => by
    have htrim : trimStart (' ' :: (x ++ ' ' :: '=' :: rest)) = x ++ ' ' :: '=' :: rest := by
      obtain ⟨c, cs, rfl⟩ := List.exists_cons_of_ne_nil hne
      simp [trimStart, hspace, hx c List.mem_cons_self]
    have hblank : ∀ c ∈ word.toList, isBlank c = false := by
      simp only [List.mem_cons, List.not_mem_nil, or_false] at hword
      rcases hword with rfl | rfl <;> exact isBlank_of_all rfl
    rw [afterSpacedWord?, htrim] at hr
    exact ⟨rest, afterWord?_name hblank hx hr⟩
  have hequals := clause_eq_none (s := ' ' :: '=' :: rest) fun word hword r hr => by
    simp only [List.mem_cons, List.not_mem_nil, or_false] at hword
    rcases hword with rfl | rfl <;> cases hr
  calc hasClause ("const".toList ++ ' ' :: (x ++ ' ' :: '=' :: rest))
      = hasClause (' ' :: (x ++ ' ' :: '=' :: rest)) := hasClause_append (isBlank_of_all rfl) _
    _ = hasClause (x ++ ' ' :: '=' :: rest) := by rw [hasClause, hname.1, hname.2]; rfl
    _ = hasClause (' ' :: '=' :: rest) := hasClause_append hx _
    _ = hasClause ('=' :: rest) := by rw [hasClause, hequals.1, hequals.2]; rfl
    _ = hasClause rest := hasClause_cons rfl rest

/-- A word with something behind it is still there when more follows. -/
theorem afterSpacedWord?_append {word : String} {r : List Char} (hr : r ≠ [])
    (h : afterSpacedWord? word s = some r) (w : List Char) :
    afterSpacedWord? word (s ++ w) = some (r ++ w) := by
  rw [afterSpacedWord?] at h ⊢
  split at h
  · rename_i hblank
    rw [afterWord?] at h
    split at h
    · rename_i c cs hafter
      split at h
      · rename_i hc
        cases h
        have hstart : word.toList ++ c :: cs = trimStart s :=
          List.isPrefixOf?_eq_some_iff_append_eq.1 hafter
        have hne : trimStart s ≠ [] := by
          rw [← hstart]
          simp
        have hafter' : afterLiteral? word (trimStart s ++ w) = some (c :: (cs ++ w)) :=
          List.isPrefixOf?_eq_some_iff_append_eq.2 (by rw [← hstart]; simp)
        have hhead : (s ++ w).head?.any isBlank = true := by
          cases s with
          | nil => cases hblank
          | cons d ds => exact hblank
        rw [if_pos hhead, (trimStart_append hne w).1, afterWord?, hafter']
        simp [hc, (trimStart_append hr w).1]
      · cases h
    · cases h
  · cases h

section

variable {w : List Char} (hw : ∀ c ∈ w, isBlank c = true)
include hw

theorem isSome_asConst?_append (h : (asConst? s).isSome = true) :
    (asConst? (s ++ w)).isSome = true := by
  rw [asConst?] at h ⊢
  obtain ⟨n, h⟩ := Option.isSome_iff_exists.1 h
  obtain ⟨r, hr, h⟩ := Option.bind_eq_some_iff.1 h
  obtain ⟨r', hr', h⟩ := Option.bind_eq_some_iff.1 h
  have hstart : "const".toList ++ r' = r := List.isPrefixOf?_eq_some_iff_append_eq.1 hr'
  have hne : r ≠ [] := by
    rw [← hstart]
    simp
  have hafter : afterLiteral? "const" (r ++ w) = some (r' ++ w) :=
    List.isPrefixOf?_eq_some_iff_append_eq.2 (by rw [← hstart, List.append_assoc])
  split at h
  · rename_i hend
    have hend' : atWordEnd (r' ++ w) = true := by
      match r', w, hw with
      | [], [], _ => rfl
      | [], b :: bs, hw =>
        simp [atWordEnd, isWord_of_isBlank (hw b List.mem_cons_self)]
      | d :: ds, w, hw => exact hend
    simp [afterSpacedWord?_append hne hr w, hafter, hend']
  · cases h

theorem isSome_satisfies?_append (h : (satisfies? s).isSome = true) :
    (satisfies? (s ++ w)).isSome = true := by
  rw [satisfies?] at h ⊢
  obtain ⟨n, h⟩ := Option.isSome_iff_exists.1 h
  obtain ⟨r, hr, h⟩ := Option.bind_eq_some_iff.1 h
  have htype : (r ++ w).takeWhile (fun c => isNameRest c || c == '.') =
      r.takeWhile fun c => isNameRest c || c == '.' :=
    Expr.takeWhile_append_blank hw (fun c hc => by
      simp [isNameRest_of_isBlank hc, ne_of_isBlank (c := '.') hc rfl]) r
  have hne : r ≠ [] := by
    rintro rfl
    cases h
  dsimp only at h
  split at h
  · cases h
  · rename_i hsome
    simp only [afterSpacedWord?_append hne hr w, Option.bind_eq_bind, Option.bind_some, htype,
      if_neg hsome, Option.isSome_some]

/-- What has no clause with blanks behind it has none without them. -/
theorem hasClause_of_append (h : hasClause (s ++ w) = false) : hasClause s = false := by
  induction s with
  | nil => rfl
  | cons c cs ih =>
    rw [List.cons_append, hasClause, Bool.or_eq_false_iff, Bool.or_eq_false_iff] at h
    obtain ⟨⟨hconst, hsatisfies⟩, hcs⟩ := h
    have hconst' : (asConst? (c :: cs)).isSome = false :=
      Bool.eq_false_of_not_eq_true fun hsome =>
        Bool.false_ne_true (hconst.symm.trans (isSome_asConst?_append hw hsome))
    have hsatisfies' : (satisfies? (c :: cs)).isSome = false :=
      Bool.eq_false_of_not_eq_true fun hsome =>
        Bool.false_ne_true (hsatisfies.symm.trans (isSome_satisfies?_append hw hsome))
    rw [hasClause, hconst', hsatisfies', ih hcs]
    rfl

end

/-! ## Declarators -/

theorem exists_of_isName (hx : Scope.isName x = true) :
    ∃ c cs, x = c :: cs ∧ isNameStart c = true ∧ ∀ d ∈ cs, isNameRest d = true := by
  cases x with
  | nil => cases hx
  | cons c cs =>
    rw [Scope.isName, Bool.and_eq_true, List.all_eq_true] at hx
    exact ⟨c, cs, rfl, hx⟩

/-- The characters of a name are not blank. -/
theorem isBlank_of_isName (hx : Scope.isName x = true) : ∀ c ∈ x, isBlank c = false := by
  obtain ⟨c, cs, rfl, hc, hcs⟩ := exists_of_isName hx
  have hnot {d : Char} {p : Char → Bool} (hd : p d = true)
      (hp : isBlank d = true → p d = false) : isBlank d = false :=
    Bool.eq_false_of_not_eq_true fun h => Bool.false_ne_true ((hp h).symm.trans hd)
  refine List.forall_mem_cons.2 ⟨hnot hc (eq_false_of_isBlank (by decide)), fun d hd => ?_⟩
  exact hnot (hcs d hd) isNameRest_of_isBlank

theorem patternLength_name (hx : Scope.isName x = true) {more : List Char}
    (hmore : ∀ c ∈ more.head?, isNameRest c = false) : patternLength (x ++ more) = x.length := by
  obtain ⟨a, as, rfl, ha, has⟩ := exists_of_isName hx
  have hbracket : (a == '{' || a == '[') = false := by
    rw [Bool.or_eq_false_iff, beq_eq_false_iff_ne, beq_eq_false_iff_ne]
    constructor <;> (rintro rfl; cases ha)
  have htake : (as ++ more).takeWhile isNameRest = as := takeWhile_append_stop has hmore
  rw [List.cons_append, patternLength, hbracket, ha, htake, List.length_cons, Nat.add_comm]
  rfl

/-- **A name with an expression behind it is one declarator.** -/
theorem declarators_name (hx : Scope.isName x = true) {t : List Char} (ht : trimEnd t ≠ [])
    (hcomma : topComma .outermost t = false) :
    declarators (x ++ ' ' :: '=' :: ' ' :: t) = [⟨String.ofList x, String.ofList (trim t)⟩] := by
  obtain ⟨w, hw, hsplit⟩ := exists_trimEnd_append t
  have htrim : trim (x ++ ' ' :: '=' :: ' ' :: t) = x ++ ' ' :: '=' :: ' ' :: trimEnd t := by
    obtain ⟨c, cs, rfl, -⟩ := exists_of_isName hx
    rw [trim, List.cons_append, trimStart_of_head (isBlank_of_isName hx c List.mem_cons_self),
      ← List.cons_append]
    simpa using trimEnd_append ht (c :: cs ++ [' ', '=', ' '])
  have hlength : patternLength (x ++ ' ' :: '=' :: ' ' :: trimEnd t) = x.length :=
    patternLength_name hx fun c hc => by cases hc; decide
  have hfind : findTop? ',' ('=' :: ' ' :: trimEnd t) = none := by
    refine findTop?_eq_none ?_
    rw [Nesting.outermost, topComma_ordinary rfl, topComma_ordinary rfl]
    exact topComma_of_append (by rw [← hsplit]; exact hcomma)
  have hvalue : initializer ('=' :: ' ' :: trimEnd t) = (trim t, []) := by
    have hspace : trim (' ' :: trimEnd t) = trim t := (trim_trimEnd t)
    simp [initializer, hfind, hspace]
  rw [declarators, htrim]
  have hfuel : ∃ fuel, (x ++ ' ' :: '=' :: ' ' :: trimEnd t).length = fuel + 1 :=
    ⟨x.length + (trimEnd t).length + 2, by simp; omega⟩
  obtain ⟨fuel, hfuel⟩ := hfuel
  have hpos : (x.length == 0) = false := by
    obtain ⟨c, cs, rfl, -⟩ := exists_of_isName hx
    rfl
  have hmark : afterTypeMark (trimStart (' ' :: '=' :: ' ' :: trimEnd t)) =
      '=' :: ' ' :: trimEnd t := rfl
  rw [hfuel, declaratorsFrom, hlength, hpos, List.drop_left, List.take_left, hmark, hvalue]
  rfl

/-! ## The declaration of one name -/

/-- The text of the declaration of a name. -/
def constText (x t : List Char) : List Char :=
  "const".toList ++ ' ' :: (x ++ ' ' :: '=' :: ' ' :: t)

theorem isErased_constText (x t : List Char) : isErased (constText x t) = false :=
  rfl

theorem afterExport_constText (x t : List Char) : afterExport (constText x t) = constText x t :=
  rfl

theorem declaration?_constText (hx : Scope.isName x = true) (t : List Char) :
    declaration? (constText x t) = some ("const ".toList, x ++ ' ' :: '=' :: ' ' :: t) := by
  have hword : afterWord? "const" (constText x t) = some (x ++ ' ' :: '=' :: ' ' :: t) := by
    obtain ⟨c, cs, rfl, -⟩ := exists_of_isName hx
    exact congrArg some (trimStart_of_head (isBlank_of_isName hx c List.mem_cons_self) _)
  have hlength : (constText x t).length - (x ++ ' ' :: '=' :: ' ' :: t).length = 6 := by
    have hconst : "const".toList.length = 5 := rfl
    rw [constText, List.length_append, List.length_cons, hconst]
    omega
  rw [declaration?, List.findSome?_cons, hword, Option.map_some, hlength]
  rfl

theorem trim_constText {t : List Char} (ht : trimEnd t ≠ []) (x : List Char) :
    trim (constText x t) = constText x (trimEnd t) := by
  have hstart : trimStart (constText x t) = constText x t := rfl
  rw [trim, hstart]
  simpa only [constText, List.append_assoc, List.cons_append, List.nil_append] using
    trimEnd_append ht ("const".toList ++ ' ' :: x ++ [' ', '=', ' '])

section

variable {x e : List Char} (hx : Scope.isName x = true) (he : trim e ≠ [])
  (hclause : hasClause (' ' :: e) = false) (hcomma : topComma .outermost e = false)
include hx he hclause hcomma

theorem plain?_const :
    plain? (String.ofList (constText x e)) = some (String.ofList (constText x (trim e))) := by
  obtain ⟨w, hw, hsplit⟩ := exists_trimEnd_append e
  have hend : trimEnd e ≠ [] := by
    intro hnil
    rw [← trim_trimEnd, hnil] at he
    exact he rfl
  obtain ⟨hconst, hsatisfies⟩ : eraseFrom asConst? 0 (constText x (trimEnd e)) =
      constText x (trimEnd e) ∧
      eraseFrom satisfies? 0 (constText x (trimEnd e)) = constText x (trimEnd e) := by
    have hne : x ≠ [] := by
      rintro rfl
      cases hx
    refine eraseFrom_eq_self ?_
    rw [constText, hasClause_declaration hne (isBlank_of_isName hx)]
    refine hasClause_of_append hw ?_
    rw [List.cons_append, ← hsplit]
    exact hclause
  have hdeclarators := declarators_name hx (by rw [trimEnd_trimEnd]; exact hend)
    (topComma_of_append (by rw [← hsplit]; exact hcomma))
  have hinit : (String.ofList (trim e)).isEmpty = false := by
    simpa [String.isEmpty_iff] using he
  rw [plain?, String.toList_ofList, trim_constText hend, isErased_constText, afterExport_constText,
    hconst, hsatisfies]
  dsimp only
  rw [if_neg Bool.false_ne_true, declaration?_constText hx]
  dsimp only
  rw [hdeclarators, trim_trimEnd, List.map_singleton, Declarator.text, hinit]
  refine congrArg some (String.toList_inj.1 ?_)
  simp [constText]

/-- **The declaration of one name declares that name**, with the source of its value as it is
written. -/
theorem declaredBy_const :
    Scope.declaredBy (String.ofList (constText x e)) =
      [⟨String.ofList x, String.ofList (trim e)⟩] := by
  obtain ⟨w, hw, hsplit⟩ := exists_trimEnd_append (trimStart e)
  have hcomma' : topComma .outermost (trim e) = false := by
    have hblank : ∀ c ∈ e.takeWhile isBlank, isOrdinary c = true := fun c hc =>
      isOrdinary_of rfl (List.all_eq_true.1 List.all_takeWhile c hc)
    rw [← List.takeWhile_append_dropWhile (p := isBlank) (l := e), Nesting.outermost,
      topComma_append hblank, ← trimStart, hsplit] at hcomma
    exact topComma_of_append hcomma
  rw [Scope.declaredBy, plain?_const hx he hclause hcomma]
  dsimp only
  rw [String.toList_ofList, declaration?_constText hx]
  dsimp only
  rw [declarators_name hx (by rw [trim, trimEnd_trimEnd]; exact he) hcomma', trim_trim]

end

/-! ## Execution -/

/-- An expression is not blank. -/
theorem trim_ne_nil_of_parse {e : Expr} (h : Expr.parse source = .ok e) :
    trim source.toList ≠ [] := by
  intro hnil
  obtain ⟨ts, hlex, hts, -⟩ := Expr.parse_eq_ok_iff.1 (Expr.parse_strip h)
  rw [strip, hnil, Expr.lex, String.toList_ofList, Expr.lexFrom] at hlex
  cases hlex
  exact hts rfl

namespace Scope

open Atoll.Expr (parse report run)

/-- A name is bound to a value, with blanks around it or without. -/
theorem bindPattern_trim (s : Scope) {target name : List Char} (htrim : trim target = name)
    (hname : isName name = true) (fuel : Nat) (label : Label) (v : Value) (out : Bindings) :
    bindPattern s (fuel + 1) label target v out = .ok (setEntry (String.ofList name) v out) := by
  obtain ⟨c, cs, rfl, hc, -⟩ := exists_of_isName hname
  have hbrace : c ≠ '{' := by
    rintro rfl
    cases hc
  have hbracket : c ≠ '[' := by
    rintro rfl
    cases hc
  simp [bindPattern, htrim, hbrace, hbracket, hname]

theorem bindPattern_name (s : Scope) (hx : isName x = true) (fuel : Nat) (label : Label)
    (v : Value) : bindPattern s (fuel + 1) label x v [] = .ok [(String.ofList x, v)] :=
  bindPattern_trim s (trim_eq_self (isBlank_of_isName hx)) hx fuel label v []

/-- The value of a source that can be read. -/
theorem evaluate_of_parse (s : Scope) (label : Label) {e : Expr} (h : parse source = .ok e) :
    s.evaluate label source =
      (run (s.outer ++ [s.bindings]) Expr.maxDepth (.evaluate ⟨[], s.level⟩ label e)).mapError
        (report source) := by
  rw [evaluate, Expr.evaluateIn, h]

/-- Blanks around an expression are left out of its report. -/
theorem evaluate_strip (s : Scope) (label : Label) {e : Expr} (h : parse source = .ok e) :
    (∃ v, s.evaluate label source = .ok v ∧ s.evaluate label (strip source) = .ok v) ∨
    (∃ f g, s.evaluate label source = .error (.failed f) ∧
      s.evaluate label (strip source) = .error (.failed g)) ∨
    ∃ fault, (∀ f, fault ≠ .failed f) ∧ s.evaluate label source = .error fault ∧
      s.evaluate label (strip source) = .error fault := by
  rw [evaluate_of_parse s label h, evaluate_of_parse s label (Expr.parse_strip h)]
  cases run (s.outer ++ [s.bindings]) Expr.maxDepth (.evaluate ⟨[], s.level⟩ label e) with
  | ok v => exact .inl ⟨v, rfl, rfl⟩
  | error fault =>
    cases fault with
    | failed f => exact .inr (.inl ⟨_, _, rfl, rfl⟩)
    | tooDeep => exact .inr (.inl ⟨_, _, rfl, rfl⟩)
    | trouble cause =>
      cases hcause : cause.kind == .misuse with
      | true => exact .inr (.inr ⟨.trouble cause, nofun, by simp [Except.mapError, report, hcause],
          by simp [Except.mapError, report, hcause]⟩)
      | false => exact .inr (.inl ⟨_, _, by simp [Except.mapError, report, hcause]; rfl,
          by simp [Except.mapError, report, hcause]; rfl⟩)

/-- What comes of the declarator of a name. -/
theorem bindDeclarator_name (s : Scope) (label : Label) {x init : String}
    (hx : isName x.toList = true) (hinit : init.isEmpty = false) :
    s.bindDeclarator label ⟨x, init⟩ =
      (s.evaluate (0 :: label) init).map fun v => [(x, v)] := by
  rw [bindDeclarator, hinit]
  show (s.evaluate (0 :: label) init >>= fun v => bindPattern s (x.length + 1) (1 :: label)
    x.toList v []) = _
  cases s.evaluate (0 :: label) init with
  | error fault => rfl
  | ok v =>
    show bindPattern s (x.length + 1) (1 :: label) x.toList v [] = .ok [(x, v)]
    rw [bindPattern_name s hx, String.ofList_toList]

/-- **A declaration binds its name to the value of the expression.**  If the evaluation fails,
nothing changes; a fault that is no reported failure stops the execution.  The text of the
expression may hold nothing that looks like a type clause, and no template in a template, unless no
comma comes out of that one. -/
theorem execute_const (s : Scope) {x e : String} {tree : Expr}
    (hx : isName x.toList = true) (he : parse e = .ok tree)
    (hclause : hasClause (' ' :: e.toList) = false)
    (hplain : Expr.hasPlainTemplates e = true ∨ topComma .outermost e.toList = false) :
    let done := s.execute ("const " ++ x ++ " = " ++ e)
    match s.evaluate [0, 0, s.executed, 1, s.level] e with
    | .ok v => done.fault = none ∧ done.scope.bindings.lookup x = some v ∧
        ∀ y, y ≠ x → done.scope.bindings.lookup y = s.bindings.lookup y
    | .error (.failed _) => done.fault = none ∧ done.scope.bindings = s.bindings
    | .error fault => done.fault = some fault ∧ done.scope.bindings = s.bindings := by
  have hne : trim e.toList ≠ [] := trim_ne_nil_of_parse he
  have hinit : (strip e).isEmpty = false := by
    simpa [strip, String.isEmpty_iff] using hne
  have hdeclared : declaredBy ("const " ++ x ++ " = " ++ e) = [⟨x, strip e⟩] := by
    have hstatement : "const " ++ x ++ " = " ++ e =
        String.ofList (constText x.toList e.toList) := by
      refine String.toList_inj.1 ?_
      simp [constText]
    have hcomma := hplain.elim (topComma_of_parse he) id
    rw [hstatement, declaredBy_const hx hne hclause hcomma, String.ofList_toList, strip]
  have hbind := bindDeclarator_name { s with executed := s.executed + 1 }
    [0, s.executed, 1, s.level] hx hinit
  -- the number of executed statements has no part in an evaluation
  replace hbind : bindDeclarator { s with executed := s.executed + 1 } [0, s.executed, 1, s.level]
      ⟨x, strip e⟩ =
        (s.evaluate [0, 0, s.executed, 1, s.level] (strip e)).map fun v => [(x, v)] := hbind
  dsimp only
  rw [execute, hdeclared, executeDeclarators, declare, hbind]
  rcases evaluate_strip s [0, 0, s.executed, 1, s.level] he with
    ⟨v, hv, hstrip⟩ | ⟨f, g, hf, hstrip⟩ | ⟨fault, hfault, hv, hstrip⟩
  · rw [hv, hstrip]
    refine ⟨rfl, ?_, fun y hy => ?_⟩
    · exact (lookup_setEntry x x v s.bindings).trans (if_pos rfl)
    · exact (lookup_setEntry x y v s.bindings).trans (if_neg hy)
  · rw [hf, hstrip]
    exact ⟨rfl, rfl⟩
  · rw [hv, hstrip]
    cases fault with
    | failed f => exact absurd rfl (hfault f)
    | _ => exact ⟨rfl, rfl⟩

/-- Commas, brackets and words for clauses in quotes are no trouble. -/
theorem execute_const_list :
    isName "x".toList = true ∧
    parse " [`,)`, ', as', n] " =
      .ok (.array [.single (.template ",)" []), .single (.literal (.string ", as")),
        .single (.name "n")]) ∧
    hasClause (' ' :: " [`,)`, ', as', n] ".toList) = false ∧
    Expr.hasPlainTemplates " [`,)`, ', as', n] " = true ∧
    ((ofNames [("n", .bool true)]).execute
      ("const " ++ "x" ++ " = " ++ " [`,)`, ', as', n] ")).scope.bindings.lookup "x" =
      some (.array [0, 0, 0, 1, 0] [.string ",)", .string ", as", .bool true]) := by
  have hparse : parse " [`,)`, ', as', n] " =
      .ok (.array [.single (.template ",)" []), .single (.literal (.string ", as")),
        .single (.name "n")]) := Expr.whole_eq_ok (by cbv) rfl
  have hplain : Expr.hasPlainTemplates " [`,)`, ', as', n] " = true := by
    cbv
  have hclause : hasClause (' ' :: " [`,)`, ', as', n] ".toList) = false := by
    decide
  have hvalue : (ofNames [("n", .bool true)]).evaluate [0, 0, 0, 1, 0] " [`,)`, ', as', n] " =
      .ok (.array [0, 0, 0, 1, 0] [.string ",)", .string ", as", .bool true]) := by
    rw [evaluate_of_parse _ _ hparse]
    rfl
  have hdone := execute_const (ofNames [("n", .bool true)]) (x := "x") rfl hparse hclause
    (.inl hplain)
  replace hdone := hvalue ▸ hdone
  exact ⟨rfl, hparse, hclause, hplain, hdone.2.1⟩

/-- What looks like a clause is taken out of a quoted text, and the name is bound to what is left.
A template in a template lets its commas cut the declaration. -/
theorem execute_const_altered :
    (ofNames []).evaluate [0, 0, 0, 1, 0] "'a as const b'" = .ok (.string "a as const b") ∧
    ((ofNames []).execute "const x = 'a as const b'").scope.bindings = [("x", .string "a b")] ∧
    declaredBy "const x = `a$\x7b`b,c`\x7dd`" = [⟨"x", "`a$\x7b`b"⟩, ⟨"c", ""⟩] := by
  have hread : parse "'a as const b'" = .ok (.literal (.string "a as const b")) :=
    Expr.whole_eq_ok (by cbv) rfl
  have hleft : parse "'a b'" = .ok (.literal (.string "a b")) := Expr.whole_eq_ok (by cbv) rfl
  have hdeclared : declaredBy "const x = 'a as const b'" = [⟨"x", "'a b'"⟩] := by
    decide +kernel
  refine ⟨?_, ?_, by decide +kernel⟩
  · rw [evaluate_of_parse _ _ hread]
    rfl
  · rw [execute, hdeclared, executeDeclarators, declare, bindDeclarator_name _ _ rfl rfl,
      evaluate_of_parse _ _ hleft]
    rfl

end Scope

end Script
end Atoll
