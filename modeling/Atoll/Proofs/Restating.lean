import Atoll.Proofs.Declarators
import Atoll.Render.Page

/-!
# A script without its types runs like the script

A page keeps the statements of its script without their types, and executing one of these takes the
types away once more.  The builder executes the statements as they are written.  Both bind the same
names to the same values, unless the second time finds something to take away.

* `declaration?_eq_some`, `declaration?_word` — which texts are declarations.
* `isSteady` — whether a second time changes nothing; `declaredBy_plain`: what is left of such a
  statement declares what the statement does.
* `Scope.executeAll_executed` — hence both scripts bind the same.
-/

set_option autoImplicit false

namespace Atoll
namespace Script

open Text

variable {t word statement : String} {gap s rest : List Char}

/-! ## Words -/

/-- The words that start a declaration. -/
def declarationWords : List String :=
  ["const", "let", "var"]

theorem eq_of_mem_declarationWords (h : word ∈ declarationWords) :
    word = "const" ∨ word = "let" ∨ word = "var" := by
  simpa [declarationWords] using h

theorem afterWord?_eq_some {r : List Char} :
    afterWord? word s = some r ↔
      ∃ c cs, s = word.toList ++ c :: cs ∧ isBlank c = true ∧ r = trimStart cs := by
  rw [afterWord?]
  constructor
  · intro h
    split at h
    · rename_i c cs hafter
      split at h
      · rename_i hc
        exact ⟨c, cs, (List.isPrefixOf?_eq_some_iff_append_eq.1 hafter).symm, hc,
          (Option.some.inj h).symm⟩
      · cases h
    · cases h
  · rintro ⟨c, cs, rfl, hc, rfl⟩
    have hafter : afterLiteral? word (word.toList ++ c :: cs) = some (c :: cs) :=
      List.isPrefixOf?_eq_some_iff_append_eq.2 rfl
    rw [hafter]
    exact if_pos hc

/-- A declaration starts with a word and blanks. -/
theorem declaration?_eq_some {head : List Char} (h : declaration? s = some (head, rest)) :
    ∃ word ∈ declarationWords, ∃ gap, gap ≠ [] ∧ (∀ c ∈ gap, isBlank c = true) ∧
      s = word.toList ++ (gap ++ rest) ∧ head = word.toList ++ gap ∧ trimStart rest = rest := by
  obtain ⟨word, hword, hfound⟩ := List.exists_of_findSome?_eq_some h
  obtain ⟨r, hr, hpair⟩ := Option.map_eq_some_iff.1 hfound
  obtain ⟨c, cs, rfl, hc, rfl⟩ := afterWord?_eq_some.1 hr
  cases hpair
  have hsplit : cs = cs.takeWhile isBlank ++ trimStart cs := List.takeWhile_append_dropWhile.symm
  refine ⟨word, hword, c :: cs.takeWhile isBlank, List.cons_ne_nil _ _,
    List.forall_mem_cons.2 ⟨hc, List.all_eq_true.1 List.all_takeWhile⟩, ?_, ?_,
    List.dropWhile_idempotent ..⟩
  · rw [List.cons_append, ← hsplit]
  · have hwhole : word.toList ++ c :: cs =
        word.toList ++ c :: cs.takeWhile isBlank ++ trimStart cs := by
      rw [List.append_assoc, List.cons_append, ← hsplit]
    rw [hwhole, List.length_append, Nat.add_sub_cancel, List.take_left]

/-- A text that starts with such a word and blanks is a declaration. -/
theorem declaration?_word (hword : word ∈ declarationWords) (hne : gap ≠ [])
    (hgap : ∀ c ∈ gap, isBlank c = true) (hrest : trimStart rest = rest) :
    declaration? (word.toList ++ (gap ++ rest)) = some (word.toList ++ gap, rest) := by
  obtain ⟨c, cs, rfl⟩ := List.exists_cons_of_ne_nil hne
  rw [List.forall_mem_cons] at hgap
  have hafter : afterWord? word (word.toList ++ (c :: cs ++ rest)) = some rest := by
    refine afterWord?_eq_some.2 ⟨c, cs ++ rest, rfl, hgap.1, ?_⟩
    rw [trimStart, List.dropWhile_append_of_pos hgap.2, ← trimStart, hrest]
  have htake : (word.toList ++ (c :: cs ++ rest)).take
      ((word.toList ++ (c :: cs ++ rest)).length - rest.length) = word.toList ++ c :: cs := by
    rw [← List.append_assoc, List.length_append, Nat.add_sub_cancel, List.take_left]
  rcases eq_of_mem_declarationWords hword with rfl | rfl | rfl
  · rw [declaration?, List.findSome?_cons, hafter, Option.map_some, htake]
  · have hconst : afterWord? "const" ("let".toList ++ (c :: cs ++ rest)) = none := rfl
    rw [declaration?, List.findSome?_cons, hconst, Option.map_none]
    dsimp only
    rw [List.findSome?_cons, hafter, Option.map_some, htake]
  · have hconst : afterWord? "const" ("var".toList ++ (c :: cs ++ rest)) = none := rfl
    have hlet : afterWord? "let" ("var".toList ++ (c :: cs ++ rest)) = none := rfl
    rw [declaration?, List.findSome?_cons, hconst, Option.map_none]
    dsimp only
    rw [List.findSome?_cons, hlet, Option.map_none]
    dsimp only
    rw [List.findSome?_cons, hafter, Option.map_some, htake]

theorem isErased_declaration (hword : word ∈ declarationWords) (s : List Char) :
    isErased (word.toList ++ s) = false := by
  rcases eq_of_mem_declarationWords hword with rfl | rfl | rfl <;> rfl

theorem declaration?_eq_none_iff :
    declaration? s = none ↔ ∀ word ∈ declarationWords, afterWord? word s = none := by
  rw [declaration?, List.findSome?_eq_none_iff]
  exact forall₂_congr fun _ _ => Option.map_eq_none_iff

/-- A word that is there stays when the text goes on. -/
theorem afterWord?_eq_none_of_append {t : List Char}
    (h : afterWord? word (s ++ t) = none) : afterWord? word s = none := by
  rw [Option.eq_none_iff_forall_ne_some] at h ⊢
  intro r hr
  obtain ⟨c, cs, rfl, hc, -⟩ := afterWord?_eq_some.1 hr
  exact h _ (afterWord?_eq_some.2 ⟨c, cs ++ t, by simp, hc, rfl⟩)

/-! ## What is left of a statement -/

theorem isBlank_of_trimStart {c : Char} {cs : List Char} (h : trimStart (c :: cs) = c :: cs) :
    isBlank c = false := by
  by_contra hblank
  rw [Bool.not_eq_false] at hblank
  have hlength := congrArg List.length h
  have hle := (List.dropWhile_sublist (l := cs) isBlank).length_le
  rw [trimStart, List.dropWhile_cons_of_pos hblank, List.length_cons] at hlength
  omega

theorem trimStart_trimEnd (h : trimStart s = s) : trimStart (trimEnd s) = trimEnd s := by
  obtain ⟨w, -, hs⟩ := exists_trimEnd_append s
  rcases hend : trimEnd s with - | ⟨c, cs⟩
  · rfl
  · rw [hend] at hs
    rw [hs] at h
    exact trimStart_of_head (isBlank_of_trimStart h) cs

theorem trimStart_afterExport (h : trimStart s = s) :
    trimStart (afterExport s) = afterExport s := by
  have hword : ∀ {word : String} {t r : List Char}, afterWord? word t = some r →
      trimStart r = r := by
    intro word t r hr
    obtain ⟨c, cs, -, -, rfl⟩ := afterWord?_eq_some.1 hr
    exact List.dropWhile_idempotent ..
  rw [afterExport]
  split
  · rename_i rest hrest
    cases hdefault : afterWord? "default" rest with
    | none => exact hword hrest
    | some r => exact hword hdefault
  · exact h

/-- Taking away stretches that start with a blank leaves the first character. -/
theorem trimStart_eraseFrom {length? : List Char → Option Nat}
    (hlength : ∀ c cs, isBlank c = false → length? (c :: cs) = none)
    (h : trimStart s = s) : trimStart (eraseFrom length? 0 s) = eraseFrom length? 0 s := by
  cases s with
  | nil => rfl
  | cons c cs =>
    have hc := isBlank_of_trimStart h
    rw [eraseFrom, hlength c cs hc]
    exact trimStart_of_head hc _

theorem clause_eq_none_of_isBlank {c : Char} (hc : isBlank c = false) (cs : List Char) :
    asConst? (c :: cs) = none ∧ satisfies? (c :: cs) = none := by
  simp [asConst?, satisfies?, afterSpacedWord?, hc]

theorem trimStart_textOf_declarators (s : List Char) :
    trimStart (textOf (declarators s)) = textOf (declarators s) := by
  rw [declarators]
  cases (trim s).length with
  | zero => rfl
  | succ fuel =>
    rw [declaratorsFrom_succ]
    by_cases hzero : patternLength (trim s) = 0
    · rw [hzero]
      rfl
    obtain ⟨p, more, hsplit, hlength, hstart, -⟩ := patternLength_cases hzero
    have hpos : (p.length == 0) = false := by rw [← hlength, beq_eq_false_iff_ne]; exact hzero
    rw [hlength, hpos, hsplit, List.take_left]
    have hhead : ∃ c ∈ (String.ofList p).toList.head?, isBlank c = false := by
      rwa [String.toList_ofList]
    dsimp only
    rcases goOn_cases fuel ⟨String.ofList p, _⟩ _ with ⟨rest, -, -, hmany⟩ | hone
    · rw [if_neg Bool.false_ne_true, hmany]
      exact trimStart_textOf (d := ⟨String.ofList p, _⟩) hhead _
    · rw [if_neg Bool.false_ne_true, hone]
      exact trimStart_textOf (d := ⟨String.ofList p, _⟩) hhead _

/-- **What is left of a statement** is a declaration with the text of its declarators, or none. -/
theorem plain?_cases (h : plain? statement = some t) :
    (trimStart t.toList = t.toList ∧ declaration? t.toList = none) ∨
    ∃ word ∈ declarationWords, ∃ gap s, gap ≠ [] ∧ (∀ c ∈ gap, isBlank c = true) ∧
      t.toList = word.toList ++ (gap ++ textOf (declarators s)) := by
  have hstart : trimStart (trim statement.toList) = trim statement.toList :=
    trimStart_trimEnd (List.dropWhile_idempotent ..)
  rw [plain?] at h
  split at h
  · cases h
  dsimp only at h
  split at h
  · rename_i head rest hdeclaration
    obtain ⟨word, hword, gap, hne, hgap, -, rfl, -⟩ := declaration?_eq_some hdeclaration
    obtain rfl := Option.some.inj h
    exact .inr ⟨word, hword, gap, rest, hne, hgap, by simp [textOf]⟩
  · rename_i hdeclaration
    obtain rfl := Option.some.inj h
    rw [String.toList_ofList]
    refine .inl ⟨?_, hdeclaration⟩
    exact trimStart_eraseFrom (fun c cs hc => (clause_eq_none_of_isBlank hc cs).2)
      (trimStart_eraseFrom (fun c cs hc => (clause_eq_none_of_isBlank hc cs).1)
        (trimStart_afterExport hstart))

/-- Whether nothing more is taken away from what is left of a statement: it has no type clause and
no export in front, and the quotes of the values it declares are closed, those of the last value
apart. -/
def isSteady (statement : String) : Bool :=
  match plain? statement with
  | none => true
  | some t => !hasClause t.toList && (afterWord? "export" t.toList).isNone
      && (Scope.declaredBy statement).dropLast.all fun d => closesQuotes d.init.toList

/-- What a statement declares is read from what is left of it. -/
theorem declaredBy_of_plain? (h : plain? statement = some t) :
    Scope.declaredBy statement =
      ((declaration? t.toList).map fun found => declarators found.2).getD [] := by
  rw [Scope.declaredBy, h]
  dsimp only
  cases declaration? t.toList with
  | none => rfl
  | some found => rfl

section

variable {t : String} (hclause : hasClause t.toList = false)
  (hexport : afterWord? "export" t.toList = none)
include hclause hexport

/-- Nothing is taken away from a text without type clauses and exports. -/
theorem erased_eq_self : eraseFrom satisfies? 0 (eraseFrom asConst? 0
    (afterExport (trimEnd t.toList))) = trimEnd t.toList := by
  obtain ⟨w, hw, hsplit⟩ := exists_trimEnd_append t.toList
  rw [hsplit] at hclause hexport
  obtain ⟨hconst, hsatisfies⟩ := eraseFrom_eq_self (hasClause_of_append hw hclause)
  rw [afterExport, afterWord?_eq_none_of_append hexport, hconst, hsatisfies]

/-- What is no declaration declares nothing the second time either. -/
theorem declaredBy_eq_nil (htrim : trimStart t.toList = t.toList)
    (hdeclaration : declaration? (trimEnd t.toList) = none) : Scope.declaredBy t = [] := by
  have hplain : plain? t = none ∨ plain? t = some (String.ofList (trimEnd t.toList)) := by
    rw [plain?, trim, htrim]
    split
    · exact .inl rfl
    · dsimp only
      rw [erased_eq_self hclause hexport, hdeclaration]
      exact .inr rfl
  rcases hplain with hnone | hsome
  · rw [Scope.declaredBy, hnone]
  · rw [declaredBy_of_plain? hsome, String.toList_ofList, hdeclaration]
    rfl

/-- A declaration declares the second time what the text of its declarators does. -/
theorem declaredBy_declaration (hword : word ∈ declarationWords) (hne : gap ≠ [])
    (hgap : ∀ c ∈ gap, isBlank c = true) (hrest : trimStart rest = rest)
    (ht : t.toList = word.toList ++ (gap ++ rest)) :
    Scope.declaredBy t = declarators (textOf (declarators rest)) := by
  have htrim : trimStart t.toList = t.toList := by
    rw [ht]
    rcases eq_of_mem_declarationWords hword with rfl | rfl | rfl <;> rfl
  by_cases hnil : rest = []
  · -- the word alone is no declaration
    subst hnil
    have hend : trimEnd t.toList = word.toList := by
      rw [ht, List.append_nil, trimEnd_append_blank hgap]
      rcases eq_of_mem_declarationWords hword with rfl | rfl | rfl <;> rfl
    have hdeclaration : declaration? (trimEnd t.toList) = none := by
      rw [hend]
      rcases eq_of_mem_declarationWords hword with rfl | rfl | rfl <;> rfl
    rw [declaredBy_eq_nil hclause hexport htrim hdeclaration]
    rfl
  · have hne' : trimEnd rest ≠ [] := by
      obtain ⟨w, hw, hsplit⟩ := exists_trimEnd_append rest
      intro hempty
      rw [hempty, List.nil_append] at hsplit
      obtain ⟨c, cs, rfl⟩ := List.exists_cons_of_ne_nil hnil
      have hblank := hw c (by rw [← hsplit]; exact List.mem_cons_self)
      rw [isBlank_of_trimStart hrest] at hblank
      cases hblank
    have hend : trimEnd t.toList = word.toList ++ (gap ++ trimEnd rest) := by
      rw [ht, ← List.append_assoc, trimEnd_append hne', List.append_assoc]
    have hsame : declarators (trimEnd rest) = declarators rest := by
      rw [declarators, trim_trimEnd, declarators]
    have herased : isErased (trimEnd t.toList) = false := by
      rw [hend]
      exact isErased_declaration hword _
    have hdeclaration : declaration? (trimEnd t.toList) =
        some (word.toList ++ gap, trimEnd rest) := by
      rw [hend, declaration?_word hword hne hgap (trimStart_trimEnd hrest)]
    have hplain : plain? t =
        some (String.ofList (word.toList ++ (gap ++ textOf (declarators rest)))) := by
      rw [plain?, trim, htrim, erased_eq_self hclause hexport, herased]
      dsimp only
      rw [if_neg Bool.false_ne_true, hdeclaration]
      dsimp only
      rw [hsame]
      refine congrArg some (String.toList_inj.1 ?_)
      simp [textOf]
    rw [declaredBy_of_plain? hplain, String.toList_ofList,
      declaration?_word hword hne hgap (trimStart_textOf_declarators rest), Option.map_some,
      Option.getD_some]

end

/-- **What is left of a steady statement declares what the statement does.** -/
theorem declaredBy_plain (h : plain? statement = some t)
    (hsteady : isSteady statement = true) : Scope.declaredBy t = Scope.declaredBy statement := by
  have hdeclared := declaredBy_of_plain? h
  unfold isSteady at hsteady
  rw [h] at hsteady
  simp only [Bool.and_eq_true, Bool.not_eq_true', Option.isNone_iff_eq_none, List.all_eq_true]
    at hsteady
  obtain ⟨⟨hclause, hexport⟩, hquotes⟩ := hsteady
  rcases plain?_cases h with ⟨htrim, hnone⟩ | ⟨word, hword, gap, s, hne, hgap, ht⟩
  · obtain ⟨w, -, hsplit⟩ := exists_trimEnd_append t.toList
    have hend : declaration? (trimEnd t.toList) = none := by
      rw [hsplit, declaration?_eq_none_iff] at hnone
      exact declaration?_eq_none_iff.2 fun word hword =>
        afterWord?_eq_none_of_append (hnone word hword)
    rw [hdeclared, hnone, declaredBy_eq_nil hclause hexport htrim hend]
    rfl
  · have hrest := trimStart_textOf_declarators s
    rw [ht, declaration?_word hword hne hgap hrest, Option.map_some, Option.getD_some] at hdeclared
    rw [declaredBy_declaration hclause hexport hword hne hgap hrest ht]
    rw [hdeclared] at hquotes ⊢
    exact declarators_declarators hquotes

/-! ## Execution -/

namespace Scope

/-- Statements that declare the same are executed alike. -/
theorem execute_congr (s : Scope) {a b : String} (h : declaredBy a = declaredBy b) :
    s.execute a = s.execute b := by
  rw [execute, execute, h]

/-- What is left of steady statements is executed like the statements, by induction on them. -/
theorem executeAll_plain {statements : List String}
    (h : ∀ statement ∈ statements, isSteady statement = true) (s : Scope) :
    s.executeAll (statements.filterMap plain?) = s.executeAll statements := by
  induction statements generalizing s with
  | nil => rfl
  | cons statement rest ih =>
    rw [List.forall_mem_cons] at h
    cases hplain : plain? statement with
    | none =>
      have hnone : declaredBy statement = [] := by rw [declaredBy, hplain]
      rw [List.filterMap_cons_none hplain, ih h.2, executeAll, hnone]
      rfl
    | some t =>
      have hsame := declaredBy_plain hplain h.1
      rw [List.filterMap_cons_some hplain, executeAll, executeAll, execute_congr s hsame, hsame]
      split
      · exact ih h.2 s
      · dsimp only
        split
        · rfl
        · exact ih h.2 _

/-- **A page's script binds what its source does.**  Executing what the page keeps of a script, from
some names on, ends with the names and values that the script binds on top of them, or in the same
fault, provided that a second time takes nothing away from its statements. -/
theorem executeAll_executed (code : String) (names : Bindings)
    (h : ∀ statement ∈ (parts code).statements, isSteady statement = true) :
    ((ofNames names).executeAll (Render.Page.executed (parts code))).map Scope.bindings =
      bindingsOf code names := by
  rw [Render.Page.executed, executeAll_plain h, bindingsOf]

/-- A script with exports, types and clauses. -/
def typedScript : String :=
  "export const [a, b]: T[] = f('x, y') as const, c! : number = g(`z`)\n" ++
    "type T = string; interface U \x7b\x7d\nlet d = a satisfies V.W<T>[]"

/-- What is taken away the first time is no trouble. -/
theorem executeAll_executed_typed :
    (∀ statement ∈ (parts typedScript).statements, isSteady statement = true) ∧
    ((ofNames [("e", .null)]).executeAll (Render.Page.executed (parts typedScript))).map
      Scope.bindings = bindingsOf typedScript [("e", .null)] := by
  have hsteady : ∀ statement ∈ (parts typedScript).statements, isSteady statement = true :=
    List.all_eq_true.1 (by decide +kernel)
  exact ⟨hsteady, executeAll_executed _ _ hsteady⟩

/-- A second export is taken away only the second time, and then there is a declaration.  The blank
behind an equals sign, which the text of a declarator has and the source need not have, makes a
clause of a name. -/
theorem executeAll_executed_altered :
    (bindingsOf "export export const x = y" [("y", .null)] = .ok [("y", .null)] ∧
      ((ofNames [("y", .null)]).executeAll
        (Render.Page.executed (parts "export export const x = y"))).map Scope.bindings =
          .ok [("y", .null), ("x", .null)]) ∧
    bindingsOf "const x =satisfies .length" [("satisfies", .string "ab")] =
      .ok [("satisfies", .string "ab"), ("x", .number (.int 2))] ∧
    ((ofNames [("satisfies", .string "ab")]).executeAll
      (Render.Page.executed (parts "const x =satisfies .length"))).map Scope.bindings =
        .ok [("satisfies", .string "ab"), ("x", .undefined)] := by
  have hname : Expr.parse "y" = .ok (.name "y") := Expr.whole_eq_ok (by cbv) rfl
  have hlength : Expr.parse "satisfies .length" =
      .ok (.member (.name "satisfies") (.literal (.string "length")) false) :=
    Expr.whole_eq_ok (by cbv) rfl
  refine ⟨⟨?_, ?_⟩, ?_, ?_⟩
  · have hparts : (parts "export export const x = y").statements =
        ["export export const x = y"] := by decide +kernel
    have hnone : declaredBy "export export const x = y" = [] := by decide +kernel
    rw [bindingsOf, hparts, executeAll, hnone]
    rfl
  · have hparts : Render.Page.executed (parts "export export const x = y") =
        ["export const x = y"] := by decide +kernel
    have hdeclared : declaredBy "export const x = y" = [⟨"x", "y"⟩] := by decide +kernel
    rw [hparts, executeAll, hdeclared, execute, hdeclared, executeDeclarators, declare,
      bindDeclarator_name _ _ rfl rfl, evaluate_of_parse _ _ hname]
    rfl
  · have hparts : (parts "const x =satisfies .length").statements =
        ["const x =satisfies .length"] := by decide +kernel
    have hdeclared : declaredBy "const x =satisfies .length" = [⟨"x", "satisfies .length"⟩] := by
      decide +kernel
    rw [bindingsOf, hparts, executeAll, hdeclared, execute, hdeclared, executeDeclarators, declare,
      bindDeclarator_name _ _ rfl rfl, evaluate_of_parse _ _ hlength]
    rfl
  · have hparts : Render.Page.executed (parts "const x =satisfies .length") =
        ["const x = satisfies .length"] := by decide +kernel
    have hdeclared : declaredBy "const x = satisfies .length" = [⟨"x", ""⟩] := by decide +kernel
    rw [hparts, executeAll, hdeclared, execute, hdeclared]
    rfl

end Scope

end Script
end Atoll
