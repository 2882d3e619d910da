import Atoll.Proofs.Doubles
import Atoll.Proofs.Execution
import Atoll.Proofs.Membership

/-!
# What stops a script

Taking a value apart asks it for its members outside of every evaluation, so that trouble there is
not turned into a reported failure: it stops the script.

* `Scope.FromPattern` — the faults that end the binding of a pattern; `Scope.bindPattern_fails` —
  **there are no others**, by induction on the levels of brackets.
* `Scope.StoppedBy` — the faults that stop a declarator; `Scope.execute_stopped` — what stops a
  statement.
* `member_defined` — hence what is true of the members of a value, and of scripts that ask for them.
-/

set_option autoImplicit false

namespace Atoll

namespace Script

open Text

/-! ## Pieces of a pattern -/

theorem StandsIn.isInfix {x s : List Char} (h : StandsIn x s) : x <:+: s := by
  obtain ⟨a, b, hs, -⟩ := h
  exact ⟨a, b, hs.symm⟩

theorem trim_isInfix (s : List Char) : trim s <:+: s :=
  (standsIn_trim s).isInfix

theorem length_splitMarked_le (c : Char) (m : List (Char × Bool)) :
    (splitMarked c m).length ≤ m.length + 1 := by
  induction m with
  | nil => exact Nat.le_refl 1
  | cons entry m ih =>
    obtain ⟨d, top⟩ := entry
    rw [splitMarked]
    split
    · simpa using ih
    · split
      · simp
      · rename_i hsplit
        rw [hsplit] at ih
        simpa using Nat.le_succ_of_le ih

theorem length_splitCommas_le (s : List Char) : (splitCommas s).length ≤ s.length + 1 := by
  have hlength : (topLevel s).length = s.length := by
    rw [← congrArg List.length (map_fst_marked .outermost s), List.length_map, topLevel]
  exact hlength ▸ length_splitMarked_le ',' (topLevel s)

namespace Scope

open Atoll.Expr (Fault Failure)

variable {fault : Fault} {label : Label} {i : Nat} {out : Bindings} {s : Scope}

/-- The faults that end the binding of a pattern: reported failures, faults of evaluating a piece of
it, and trouble with a key in it that is not read.  A list has no place beyond the doubles. -/
inductive FromPattern (s : Scope) (pattern : List Char) : Fault → Prop where
  | reported (failure : Failure) : FromPattern s pattern (.failed failure)
  | default {label : Label} {source : String} {fault : Fault} (hsource : source.toList <:+: pattern)
    (h : s.evaluate label source = .error fault) : FromPattern s pattern fault
  | key {key : String} (hkey : key.toList <:+: pattern) (h : Value.isUnread key = true) :
    FromPattern s pattern (.trouble (Value.unreadDigits key))
  | places (h : Double.limit ≤ pattern.length) : FromPattern s pattern (.trouble .largeInteger)

section

variable {s : Scope} {pattern : List Char}

theorem FromPattern.mono {piece : List Char} (hpiece : piece <:+: pattern)
    (h : FromPattern s piece fault) : FromPattern s pattern fault := by
  cases h with
  | reported failure => exact .reported failure
  | default hsource h => exact .default (hsource.trans hpiece) h
  | key hkey h => exact .key (hkey.trans hpiece) h
  | places h => exact .places (h.trans hpiece.length_le)

theorem FromPattern.ofLacksText (h : fault.LacksText) : FromPattern s pattern fault := by
  cases h with
  | number => exact .reported _
  | kind kind => exact .reported _

/-! ## Members -/

theorem index?_key_fails {key : String} (hkey : key.toList <:+: pattern) :
    FailsWith (FromPattern s pattern) (Value.index? (.string key)) := by
  rw [Value.index?_string]
  split
  · rename_i hunread
    exact .error (.key hkey hunread)
  · exact .ok _

theorem index?_place_fails (hi : i ≤ pattern.length) :
    FailsWith (FromPattern s pattern) (Value.index? (.ofInt i)) := by
  rw [Value.ofInt, Value.index?]
  rcases Number.toFloat_int i with ⟨x, hx⟩ | ⟨hx, hlarge⟩
  · rw [hx]
    refine FailsWith.bind (FailsWith.ok x) fun x => ?_
    cases (Double.toInt? x).isSome && Number.le (.int 0) (.int i) with
    | true => exact .ok _
    | false => exact .ok _
  · rw [hx]
    rw [Int.natAbs_natCast] at hlarge
    exact .error (.places (hlarge.trans hi))

/-- Only the place that a key stands for is ever in doubt. -/
theorem member_fails {key : Value} (hkey : FailsWith (FromPattern s pattern) key.index?)
    (label : Label) (value : Value) :
    FailsWith (FromPattern s pattern) (value.member label key) := by
  have htext : FailsWith (FromPattern s pattern) key.toText :=
    key.toText_lacksText.mono fun _ h => .ofLacksText h
  cases value with
  | undefined => exact htext.bind fun t => .error (.reported _)
  | null => exact htext.bind fun t => .error (.reported _)
  | bool b => exact htext.bind fun t => .ok _
  | number n => exact htext.bind fun t => .ok _
  | string t =>
    refine hkey.bind fun place => ?_
    cases place with
    | some i => exact .ok _
    | none => exact htext.bind fun t => .ok _
  | array owner items =>
    refine hkey.bind fun place => ?_
    cases place with
    | some i => exact .ok _
    | none => exact htext.bind fun t => .ok _
  | object owner entries => exact htext.bind fun t => .ok _
  | library l => exact htext.bind fun t => .ok _
  | _ => exact .ok _

/-! ## Patterns -/

/-- A default value is evaluated in the scope, and the target is a piece of what it was. -/
theorem withDefault_ends {target : List Char} (htarget : target <:+: pattern) (label : Label)
    (value : Value) :
    Ends (FromPattern s pattern) (fun r => r.1 <:+: target) (s.withDefault label target value) := by
  rw [withDefault]
  cases hassign : findAssign? target with
  | none => exact List.infix_rfl
  | some i =>
    have htake : target.take i <:+: target := (List.take_prefix i target).isInfix
    cases value with
    | undefined =>
      refine Ends.bind (R := fun _ => True) ?_ fun v _ => htake
      have hsource : (String.ofList (trim (target.drop (i + 1)))).toList <:+: target := by
        rw [String.toList_ofList]
        exact (trim_isInfix _).trans (List.drop_suffix _ _).isInfix
      cases hevaluate : s.evaluate label (String.ofList (trim (target.drop (i + 1)))) with
      | ok v => trivial
      | error fault => exact .default (hsource.trans htarget) hevaluate
    | _ => exact htake

theorem keyText_isInfix (t : List Char) : (keyText t).toList <:+: t := by
  rw [keyText, String.toList_ofList]
  have hends (p : Char → Bool) (t : List Char) : (t.reverse.dropWhile p).reverse <+: t := by
    have hprefix := List.reverse_prefix.2 (List.dropWhile_suffix (l := t.reverse) p)
    rwa [List.reverse_reverse] at hprefix
  exact ((hends _ _).isInfix.trans (List.dropWhile_suffix _).isInfix).trans (trim_isInfix t)

/-- The key and the target of an entry are pieces of it. -/
theorem keyAndTarget_isInfix (part : List Char) :
    (keyAndTarget part).1.toList <:+: part ∧ (keyAndTarget part).2 <:+: part := by
  rw [keyAndTarget]
  split
  · rename_i i hcolon
    exact ⟨(keyText_isInfix _).trans (List.take_prefix i part).isInfix,
      (List.drop_suffix _ part).isInfix⟩
  · refine ⟨?_, List.infix_rfl⟩
    rw [String.toList_ofList]
    exact (List.take_prefix _ part).isInfix

/-- A piece of the pattern that is short enough to be bound. -/
def Within (fuel : Nat) (pattern piece : List Char) : Prop :=
  piece.length < fuel ∧ piece <:+: pattern

theorem Within.piece {fuel : Nat} {part piece : List Char} (h : Within fuel pattern part)
    (hpiece : piece <:+: part) : Within fuel pattern piece :=
  ⟨Nat.lt_of_le_of_lt hpiece.length_le h.1, hpiece.trans h.2⟩

theorem rest_isInfix {part target : List Char} (h : afterLiteral? "..." part = some target) :
    target <:+: part := by
  have hdots : "...".toList ++ target = part := List.isPrefixOf?_eq_some_iff_append_eq.1 h
  exact hdots ▸ (List.suffix_append _ target).isInfix

section

variable {fuel : Nat} {bind : Binder} (hbind : ∀ label target value out,
  Within fuel pattern target → FailsWith (FromPattern s pattern) (bind label target value out))
include hbind

theorem bindObject_fails {value : Value} {used : List String} {parts : List (List Char)}
    (hparts : ∀ part ∈ parts, Within fuel pattern part) :
    FailsWith (FromPattern s pattern) (bindObject s bind label value i used out parts) := by
  induction parts generalizing i used out with
  | nil => exact .ok out
  | cons part parts ih =>
    obtain ⟨hpart, hparts⟩ := List.forall_mem_cons.1 hparts
    have htrim := hpart.piece (trim_isInfix part)
    rw [bindObject]
    dsimp only
    split
    · exact ih hparts
    · split
      · rename_i target hrest
        exact (hbind _ _ _ _ (htrim.piece (rest_isInfix hrest))).bind fun out => ih hparts
      · obtain ⟨hkey, htarget⟩ := keyAndTarget_isInfix (trim part)
        have hfield := htrim.piece htarget
        refine (member_fails (index?_key_fails (hkey.trans htrim.2)) _ value).bind fun item => ?_
        refine (withDefault_ends hfield.2 _ item).bind fun r hr => ?_
        exact (hbind _ _ _ _ (hfield.piece hr)).bind fun out => ih hparts

theorem bindArray_fails {value : Value} {parts : List (List Char)}
    (hparts : ∀ part ∈ parts, Within fuel pattern part)
    (hcount : i + parts.length ≤ pattern.length) :
    FailsWith (FromPattern s pattern) (bindArray s bind label value i out parts) := by
  induction parts generalizing i out with
  | nil => exact .ok out
  | cons part parts ih =>
    obtain ⟨hpart, hparts⟩ := List.forall_mem_cons.1 hparts
    have htrim := hpart.piece (trim_isInfix part)
    rw [List.length_cons] at hcount
    rw [bindArray]
    dsimp only
    split
    · exact ih hparts (by omega)
    · split
      · rename_i target hrest
        exact hbind _ _ _ _ (htrim.piece (rest_isInfix hrest))
      · refine (member_fails (index?_place_fails (by omega)) _ value).bind fun item => ?_
        refine (withDefault_ends htrim.2 _ item).bind fun r hr => ?_
        exact (hbind _ _ _ _ (htrim.piece hr)).bind fun out => ih hparts (by omega)

end

/-- **What ends the binding of a pattern.**  The induction is on the levels of brackets; a part of a
pattern is shorter than the pattern, so that there is always a level left. -/
theorem bindPattern_fails {fuel : Nat} {pattern : List Char} {value : Value}
    (hfuel : pattern.length < fuel) :
    FailsWith (FromPattern s pattern) (bindPattern s fuel label pattern value out) := by
  induction fuel generalizing label pattern value out with
  | zero => exact absurd hfuel (Nat.not_lt_zero _)
  | succ fuel ih =>
    have hbind : ∀ label target value out, Within fuel pattern target →
        FailsWith (FromPattern s pattern) (bindPattern s fuel label target value out) :=
      fun label target value out htarget => (ih htarget.1).mono fun _ => .mono htarget.2
    have hlength := (trim_isInfix pattern).length_le
    have hparts {c : Char} {body : List Char} (heq : trim pattern = c :: body) :
        ∀ part ∈ splitCommas body.dropLast, Within fuel pattern part := by
      intro part hpart
      have hinside : part <:+: body :=
        (standsIn_of_mem_splitCommas hpart).isInfix.trans (List.dropLast_prefix body).isInfix
      have hbody : body <:+: pattern :=
        (List.suffix_cons c body).isInfix.trans (heq ▸ trim_isInfix pattern)
      rw [heq, List.length_cons] at hlength
      have hle := hinside.length_le
      exact ⟨by omega, hinside.trans hbody⟩
    rw [bindPattern]
    split
    · rename_i body heq
      exact bindObject_fails hbind (hparts heq)
    · rename_i body heq
      refine bindArray_fails hbind (hparts heq) ?_
      have hcount := length_splitCommas_le body.dropLast
      rw [heq, List.length_cons] at hlength
      rw [List.length_dropLast] at hcount
      omega
    · split
      · exact .ok _
      · exact .error (.reported _)

end

/-! ## Scripts -/

/-- The faults that stop a declarator: those of evaluating its value or a piece of its pattern, and
trouble with a key in the pattern that is not read.  A list has no place beyond the doubles. -/
inductive StoppedBy (s : Scope) (d : Declarator) : Fault → Prop where
  | evaluation {label : Label} {source : String} {fault : Fault}
    (hsource : source = d.init ∨ source.toList <:+: d.pattern.toList)
    (h : s.evaluate label source = .error fault) : StoppedBy s d fault
  | key {key : String} (hkey : key.toList <:+: d.pattern.toList) (h : Value.isUnread key = true) :
    StoppedBy s d (.trouble (Value.unreadDigits key))
  | places (h : Double.limit ≤ d.pattern.length) : StoppedBy s d (.trouble .largeInteger)

theorem declare_stopped {d : Declarator}
    (h : s.declare label d = .stopped fault) : StoppedBy s d fault := by
  have hends : s.bindDeclarator label d = .error fault ∧ ∀ failure, fault ≠ .failed failure := by
    rw [declare] at h
    split at h
    · cases h
    · cases h
    · rename_i hnot hbind
      cases h
      exact ⟨hbind, hnot⟩
  obtain ⟨hbind, hnot⟩ := hends
  have hpattern {value : Value} (h : bindPattern s (d.pattern.length + 1) (1 :: label)
      d.pattern.toList value [] = .error fault) : StoppedBy s d fault := by
    have hfuel : d.pattern.toList.length < d.pattern.length + 1 := by
      rw [String.length_toList]
      exact Nat.lt_succ_self _
    have hfrom : FailsWith (FromPattern s d.pattern.toList) (bindPattern s (d.pattern.length + 1)
        (1 :: label) d.pattern.toList value []) := bindPattern_fails hfuel
    rw [h] at hfrom
    cases hfrom with
    | reported failure => exact absurd rfl (hnot failure)
    | default hsource hevaluate => exact .evaluation (.inr hsource) hevaluate
    | key hkey hunread => exact .key hkey hunread
    | places hlong => exact .places (by rwa [String.length_toList] at hlong)
  rw [bindDeclarator] at hbind
  split at hbind
  · exact hpattern hbind
  · cases hvalue : s.evaluate (0 :: label) d.init with
    | error fault' =>
      rw [hvalue] at hbind
      cases hbind
      exact .evaluation (.inl rfl) hvalue
    | ok value =>
      rw [hvalue] at hbind
      exact hpattern hbind

/-- The scope in which a declarator of a statement is run: the names of those before it are
bound. -/
def before (s : Scope) (statement : String) (k : Nat) : Scope :=
  s.entered.bind (boundBy ((s.ran statement).take k))

theorem execute_stopped {statement : String} (h : (s.execute statement).fault = some fault) :
    ∃ k d, (s.ran statement)[k]? = some (d, .stopped fault) ∧
      StoppedBy (s.before statement k) d fault := by
  rw [(execute_ran s statement).2.1] at h
  obtain ⟨⟨d, outcome⟩, hmem, hfault⟩ := List.exists_of_findSome?_eq_some h
  obtain ⟨k, hk⟩ := List.getElem?_of_mem hmem
  obtain rfl : outcome = .stopped fault := by
    cases outcome with
    | stopped fault' =>
      cases hfault
      rfl
    | _ => cases hfault
  exact ⟨k, d, hk, declare_stopped (ran_declare hk).1.symm⟩

/-- A script ends with a fault at the first statement that is stopped. -/
theorem exists_of_executeAll {statements : List String}
    (h : s.executeAll statements = .error fault) :
    ∃ done statement rest s', statements = done ++ statement :: rest ∧
      s.executeAll done = .ok s' ∧ (s'.execute statement).fault = some fault := by
  induction statements generalizing s with
  | nil => cases h
  | cons statement statements ih =>
    rw [executeAll] at h
    split at h
    · rename_i hnone
      obtain ⟨done, stopped, rest, s', rfl, hdone, hfault⟩ := ih h
      refine ⟨statement :: done, stopped, rest, s', rfl, ?_, hfault⟩
      rw [executeAll, if_pos hnone, hdone]
    · rename_i hsome
      cases hfault : (s.execute statement).fault with
      | some fault' =>
        simp only [hfault] at h
        cases h
        exact ⟨[], statement, statements, s, rfl, rfl, hfault⟩
      | none =>
        simp only [hfault] at h
        obtain ⟨done, stopped, rest, s', rfl, hdone, hstopped⟩ := ih h
        refine ⟨statement :: done, stopped, rest, s', rfl, ?_, hstopped⟩
        simp only [executeAll, if_neg hsome, hfault, hdone]

end Scope

/-- **Every value but nothing can be asked for every key**, and answers with what it has or with
undefined, unless a text or a list is asked for a key of digits that is not read.  A script is
stopped by a fault of an evaluation, or by such a key in a pattern that it takes a value apart
with. -/
theorem member_defined (label : Label) (v : Value) (key code : String) (names : Bindings) :
    (v.isNothing = false →
      (v.hasPlaces = true → Value.isUnread key = true →
        v.member label (.string key) = .error (.trouble (Value.unreadDigits key))) ∧
      ((v.hasPlaces && Value.isUnread key) = false →
        ∃ w, v.member label (.string key) = .ok w ∧ Value.Holds label v key w)) ∧
    ∀ fault, bindingsOf code names = .error fault →
      ∃ done statement rest s k d, (parts code).statements = done ++ statement :: rest ∧
        (Scope.ofNames names).executeAll done = .ok s ∧
        (s.ran statement)[k]? = some (d, .stopped fault) ∧
        Scope.StoppedBy (s.before statement k) d fault := by
  refine ⟨fun h => ⟨Value.member_unread, Value.exists_member h⟩, fun fault h => ?_⟩
  have hall : (Scope.ofNames names).executeAll (parts code).statements = .error fault := by
    rw [bindingsOf] at h
    cases hrun : (Scope.ofNames names).executeAll (parts code).statements with
    | ok s =>
      rw [hrun] at h
      cases h
    | error fault' =>
      rw [hrun] at h
      cases h
      rfl
  obtain ⟨done, statement, rest, s, hstatements, hdone, hfault⟩ := Scope.exists_of_executeAll hall
  obtain ⟨k, d, hran, hstops⟩ := Scope.execute_stopped hfault
  exact ⟨done, statement, rest, s, k, d, hstatements, hdone, hran, hstops⟩

/-- A script that asks a text for a superscript. -/
def asksSuperscript : String :=
  "const \x7b '²': x \x7d = 'abc'"

theorem declaredBy_asksSuperscript :
    Scope.declaredBy asksSuperscript = [⟨"\x7b '²': x \x7d", "'abc'"⟩] := by
  decide +kernel

theorem execute_asksSuperscript :
    ((Scope.ofNames []).execute asksSuperscript).fault = some (.trouble (.notDecimal "²")) := by
  have hparse : Expr.parse "'abc'" = .ok (.literal (.string "abc")) := Expr.whole_eq_ok (by cbv) rfl
  rw [Scope.execute, declaredBy_asksSuperscript, Scope.executeDeclarators, Scope.declare,
    Scope.bindDeclarator, Scope.evaluate_of_parse _ _ hparse]
  cbv

theorem bindingsOf_asksSuperscript :
    bindingsOf asksSuperscript [] = .error (.trouble (.notDecimal "²")) := by
  have hstatements : (parts asksSuperscript).statements = [asksSuperscript] := by
    decide +kernel
  simp [bindingsOf, hstatements, Scope.executeAll, declaredBy_asksSuperscript,
    execute_asksSuperscript, Except.map]

/-- The second place of a text, and a script that is stopped. -/
theorem member_defined_text :
    (Value.string "abc").isNothing = false ∧
      ((Value.string "abc").hasPlaces && Value.isUnread "1") = false ∧
      (∃ w, Value.member [] (.string "abc") (.string "1") = .ok w ∧
        Value.Holds [] (.string "abc") "1" w) ∧
      bindingsOf asksSuperscript [] = .error (.trouble (.notDecimal "²")) ∧
      ∃ (s : Scope) (statement : String) (k : Nat) (d : Declarator),
        statement ∈ (parts asksSuperscript).statements ∧
        (s.ran statement)[k]? = some (d, .stopped (.trouble (.notDecimal "²"))) ∧
        Scope.StoppedBy (s.before statement k) d (.trouble (.notDecimal "²")) := by
  have hunread : ((Value.string "abc").hasPlaces && Value.isUnread "1") = false := by
    decide +kernel
  obtain ⟨hmember, hstopped⟩ := member_defined [] (.string "abc") "1" asksSuperscript []
  obtain ⟨done, statement, rest, s, k, d, hstatements, -, hran, hstops⟩ :=
    hstopped _ bindingsOf_asksSuperscript
  exact ⟨rfl, hunread, (hmember rfl).2 hunread, bindingsOf_asksSuperscript, s, statement, k, d,
    by simp [hstatements], hran, hstops⟩

/-- A superscript is a digit and has no decimal value.  As a key of a text it stands for no place,
and a script that takes a text apart with it is stopped. -/
theorem member_superscript :
    Value.member [] (.string "abc") (.string "²") = .error (.trouble (.notDecimal "²")) ∧
      ((Scope.ofNames []).execute asksSuperscript).fault = some (.trouble (.notDecimal "²")) :=
  ⟨Value.member_unread rfl (by decide +kernel), execute_asksSuperscript⟩

end Script
end Atoll
