import Atoll.Proofs.Reporting

/-!
# The commas of an expression stand in brackets

Commas separate the items of lists, the entries of objects, arguments and parameters, all of which
stand in brackets.  So whoever looks for a comma outside brackets in an expression finds none.

* `looseComma` — whether a comma of a token list stands outside brackets.
* `Skips k m ts rest` — the tokens in front of `rest` leave the view of it unchanged: they have no
  comma outside `k` brackets that are open there, and `m` are open behind them.
* `Keeps k m p` — the parser `p` takes such tokens; there is one lemma for each parser.
* `keeps_parseAt` — **what is read as an expression opens what it closes**, by induction on how
  deeply it is nested.
* `looseComma_eq_false` — hence the tokens of an expression have no comma outside brackets.
-/

set_option autoImplicit false

namespace Atoll
namespace Expr

variable {ts rest : List Token} {s closing : Symbol} {l : Lexeme} {α : Type}
  {op? : Symbol → Option (Expr → Expr → Expr)} {ps : List String} {source : String}

/-! ## Brackets and commas -/

namespace Lexeme

/-- Whether the lexeme is a comma. -/
def isComma : Lexeme → Bool
  | .symbol .comma => true
  | _ => false

/-- How many brackets are open behind the lexeme. -/
def openBehind (depth : Nat) : Lexeme → Nat
  | .symbol .parenOpen => depth + 1
  | .symbol .squareOpen => depth + 1
  | .symbol .curlyOpen => depth + 1
  | .symbol .parenClose => depth - 1
  | .symbol .squareClose => depth - 1
  | .symbol .curlyClose => depth - 1
  | _ => depth

/-- Whether the lexeme is neither a bracket nor a comma. -/
def isPlain : Lexeme → Bool
  | .symbol s => !([.comma, .parenOpen, .parenClose, .squareOpen, .squareClose, .curlyOpen,
      .curlyClose].contains s)
  | _ => true

theorem isComma_of_isPlain (h : l.isPlain = true) : l.isComma = false := by
  cases l with
  | symbol s => cases s <;> cases h <;> rfl
  | _ => rfl

theorem openBehind_of_isPlain (h : l.isPlain = true) (depth : Nat) :
    l.openBehind depth = depth := by
  cases l with
  | symbol s => cases s <;> cases h <;> rfl
  | _ => rfl

end Lexeme

/-- Whether a comma stands outside brackets, `depth` of which are open in front of the tokens. -/
def looseComma (depth : Nat) : List Token → Bool
  | [] => false
  | t :: ts =>
    (t.lexeme.isComma && depth == 0) || looseComma (t.lexeme.openBehind depth) ts

/-- The tokens in front of `rest` close `k` brackets that are open there and leave `m` open ones
behind, and they have no comma outside. -/
def Skips (k m : Nat) (ts rest : List Token) : Prop :=
  ∀ depth, looseComma (depth + k) ts = looseComma (depth + m) rest

namespace Skips

variable {k m n : Nat} {ts us rest : List Token}

theorem refl (k : Nat) (ts : List Token) : Skips k k ts ts :=
  fun _ => rfl

theorem trans (h : Skips k m ts us) (h' : Skips m n us rest) : Skips k n ts rest :=
  fun depth => (h depth).trans (h' depth)

/-- What has no comma outside its own brackets can stand in brackets. -/
theorem inside (h : Skips k m ts rest) : Skips (k + 1) (m + 1) ts rest := by
  intro depth
  simpa [Nat.add_assoc, Nat.add_comm 1] using h (depth + 1)

theorem plain {t : Token} (h : t.lexeme.isPlain = true) (rest : List Token) :
    Skips 0 0 (t :: rest) rest := by
  intro depth
  rw [looseComma, t.lexeme.isComma_of_isPlain h, t.lexeme.openBehind_of_isPlain h]
  rfl

theorem comma (o : Nat) (rest : List Token) : Skips 1 1 (⟨.symbol .comma, o⟩ :: rest) rest :=
  fun _ => rfl

end Skips

/-- A symbol that opens a bracket. -/
def Symbol.isOpening (s : Symbol) : Bool :=
  s == .parenOpen || s == .squareOpen || s == .curlyOpen

/-- A symbol that closes a bracket. -/
def Symbol.isClosing (s : Symbol) : Bool :=
  s == .parenClose || s == .squareClose || s == .curlyClose

theorem skips_opening (h : s.isOpening = true) (o : Nat) (rest : List Token) :
    Skips 0 1 (⟨.symbol s, o⟩ :: rest) rest := by
  intro depth
  cases s <;> cases h <;> rfl

theorem skips_closing (h : s.isClosing = true) (o : Nat) (rest : List Token) :
    Skips 1 0 (⟨.symbol s, o⟩ :: rest) rest := by
  intro depth
  cases s <;> cases h <;> rfl

/-! ## Parsers -/

/-- The parser takes tokens that close `k` brackets open there, leave `m` open ones behind, and have
no comma outside. -/
def Keeps {α : Type} (k m : Nat) (p : Parser α) : Prop :=
  ∀ ts, Ends (fun _ => True) (fun r => Skips k m ts r.2) (p ts)

/-- A parser with its result changed. -/
theorem Keeps.map {β : Type} {k m : Nat} {p : Parser α} (hp : Keeps k m p) (g : α → β)
    (ts : List Token) :
    Ends (fun _ => True) (fun r => Skips k m ts r.2) ((p ts).map fun (a, rest) => (g a, rest)) :=
  (hp ts).map fun _ hr => hr

/-- A parser behind tokens that have been taken already. -/
theorem Keeps.behind {k m n : Nat} {p : Parser α} (hp : Keeps m n p) (h : Skips k m ts rest) :
    Ends (fun _ => True) (fun r => Skips k n ts r.2) (p rest) := by
  have hrest := hp rest
  cases hresult : p rest with
  | error fault => trivial
  | ok r =>
    rw [hresult] at hrest
    exact h.trans hrest

theorem startsWith_iff : startsWith s ts = true ↔ ∃ o rest, ts = ⟨.symbol s, o⟩ :: rest := by
  constructor
  · intro h
    unfold startsWith at h
    split at h
    · exact ⟨_, _, by rw [eq_of_beq h]⟩
    · cases h
  · rintro ⟨o, rest, rfl⟩
    exact beq_self_eq_true s

/-- A parser that takes one symbol keeps what that symbol keeps. -/
theorem keeps_expect (source : String) {k m : Nat}
    (h : ∀ o rest, Skips k m (⟨.symbol s, o⟩ :: rest) rest) : Keeps k m (expect source s) := by
  intro ts
  rw [expect]
  split
  · rename_i hstart
    obtain ⟨o, rest, rfl⟩ := startsWith_iff.1 hstart
    exact h o rest
  · cases found ts <;> trivial

theorem keeps_propertyName (source : String) : Keeps 0 0 (propertyName source) := by
  intro ts
  unfold propertyName
  split
  · exact .plain rfl _
  · trivial

/-! Operators -/

theorem keeps_chain {operand : Parser Expr}
    (hop : ∀ s, (op? s).isSome = true → (Lexeme.symbol s).isPlain = true)
    (hoperand : Keeps 0 0 operand) (fuel : Nat) (left : Expr) :
    Keeps 0 0 (chain op? operand fuel left) := by
  induction fuel generalizing left with
  | zero => exact fun ts => .refl 0 ts
  | succ fuel ih =>
    intro ts
    unfold chain
    split
    · rename_i s o rest
      split
      · rename_i join hjoin
        have hs : Skips 0 0 (⟨.symbol s, o⟩ :: rest) rest := .plain (hop s (by simp [hjoin])) rest
        exact (hoperand.behind hs).bind fun r hr => (ih _).behind hr
      · exact .refl 0 _
    · exact .refl 0 ts

/-- No operator is a bracket or a comma. -/
theorem isPlain_of_mem_levels (h : op? ∈ levels) (s : Symbol)
    (hs : (op? s).isSome = true) : (Lexeme.symbol s).isPlain = true := by
  simp only [levels, List.mem_cons, List.not_mem_nil, or_false] at h
  rcases h with rfl | rfl | rfl | rfl | rfl | rfl | rfl
  all_goals cases s <;> cases hs <;> rfl

theorem isPlain_of_unary? (h : (unary? l).isSome = true) : l.isPlain = true := by
  cases l with
  | symbol s => cases s <;> cases h <;> rfl
  | _ => rfl

theorem keeps_levels {operand : Parser Expr} (hoperand : Keeps 0 0 operand)
    {ops : List (Symbol → Option (Expr → Expr → Expr))}
    (hops : ∀ op? ∈ ops, ∀ s, (op? s).isSome = true → (Lexeme.symbol s).isPlain = true) :
    Keeps 0 0 (ops.foldl leftAssociative operand) := by
  induction ops generalizing operand with
  | nil => exact hoperand
  | cons op? ops ih =>
    rw [List.forall_mem_cons] at hops
    refine ih (fun ts => ?_) hops.2
    exact (hoperand ts).bind fun r hr => (keeps_chain hops.1 hoperand _ r.1).behind hr

/-! Lists -/

/-- Items with commas between them are read up to the bracket that closes them. -/
theorem keeps_separated (source : String) {item : Parser α} (hitem : Keeps 0 0 item)
    (hclosing : closing.isClosing = true) (fuel : Nat) :
    Keeps 1 0 (separated source item closing fuel) := by
  have hclose : Keeps 1 0 (expect source closing) :=
    keeps_expect source (skips_closing hclosing)
  induction fuel with
  | zero => exact hclose.map fun _ => []
  | succ fuel ih =>
    intro ts
    rw [separated]
    split
    · rename_i hstart
      obtain ⟨o, rest, rfl⟩ := startsWith_iff.1 hstart
      exact skips_closing hclosing o rest
    · refine (hitem ts).bind fun r hr => ?_
      obtain ⟨x, rest⟩ := r
      have hrest : Skips 1 1 ts rest := hr.inside
      dsimp only
      split
      · rename_i hstart
        obtain ⟨o, more, rfl⟩ := startsWith_iff.1 hstart
        exact (ih.behind (hrest.trans (.comma o more))).bind fun r hr => hr
      · exact (hclose.behind hrest).bind fun r hr => hr

section

variable (source : String) {expression : Parser Expr} (hexpression : Keeps 0 0 expression)
include hexpression

theorem keeps_element : Keeps 0 0 (element expression) := by
  intro ts
  unfold element
  split
  · rename_i o rest
    have hdots : Skips 0 0 (⟨.symbol .dots, o⟩ :: rest) rest := .plain rfl rest
    exact (hexpression.behind hdots).map fun r hr => hr
  · exact hexpression.map _ ts

theorem keeps_elements (hclosing : closing.isClosing = true) :
    Keeps 1 0 (elements source expression closing) :=
  fun ts => keeps_separated source (keeps_element hexpression) hclosing _ ts

theorem keeps_valueOf (key : Expr) : Keeps 0 0 (valueOf source expression key) := by
  intro ts
  refine (keeps_expect source (fun o rest => Skips.plain rfl rest) ts).bind fun r hr => ?_
  exact (hexpression.behind hr).bind fun r hr => hr

theorem keeps_keyInBrackets : Keeps 1 0 (keyInBrackets source expression) := by
  intro ts
  refine (hexpression ts).bind fun r hr => ?_
  exact ((keeps_expect source (skips_closing rfl)).behind hr.inside).bind fun r hr => hr

theorem keeps_entry : Keeps 0 0 (entry source expression) := by
  intro ts
  unfold entry
  split
  · rename_i o rest
    have hdots : Skips 0 0 (⟨.symbol .dots, o⟩ :: rest) rest := .plain rfl rest
    exact (hexpression.behind hdots).map fun r hr => hr
  · rename_i o rest
    have hopen := skips_opening (s := .squareOpen) rfl o rest
    refine (hexpression rest).bind fun (key, more) hmore => ?_
    refine ((keeps_expect source (skips_closing rfl)).behind
      (hopen.trans hmore.inside)).bind fun (_, more) hmore => ?_
    exact (keeps_valueOf source hexpression key).behind hmore
  · rename_i id o rest
    have hname : Skips 0 0 (⟨.name id, o⟩ :: rest) rest := .plain rfl rest
    dsimp only
    split
    · exact (keeps_valueOf source hexpression _).behind hname
    · exact hname
  · exact (keeps_valueOf source hexpression _).behind (.plain rfl _)
  · split
    · exact (keeps_valueOf source hexpression _).behind (.plain rfl _)
    · trivial
  · trivial

theorem keeps_entries : Keeps 1 0 (entries source expression) :=
  fun ts => keeps_separated source (keeps_entry source hexpression) rfl _ ts

theorem keeps_suffixes (fuel : Nat) (e : Expr) : Keeps 0 0 (suffixes source expression fuel e) := by
  have hproperty := keeps_propertyName source
  have hkey := keeps_keyInBrackets source hexpression
  have hargs : Keeps 1 0 (elements source expression .parenClose) :=
    keeps_elements source hexpression rfl
  induction fuel generalizing e with
  | zero => exact fun ts => .refl 0 ts
  | succ fuel ih =>
    intro ts
    unfold suffixes
    split
    · exact (hproperty.behind (.plain rfl _)).bind fun r hr => (ih _).behind hr
    · exact (hkey.behind ((Skips.plain rfl _).trans (skips_opening rfl _ _))).bind
        fun r hr => (ih _).behind hr
    · exact (hargs.behind ((Skips.plain rfl _).trans (skips_opening rfl _ _))).bind
        fun r hr => (ih _).behind hr
    · exact (hproperty.behind (.plain rfl _)).bind fun r hr => (ih _).behind hr
    · exact (hkey.behind (skips_opening rfl _ _)).bind fun r hr => (ih _).behind hr
    · exact (hargs.behind (skips_opening rfl _ _)).bind fun r hr => (ih _).behind hr
    · exact .refl 0 ts

theorem keeps_primary (whole : String → Except Fault Expr) :
    Keeps 0 0 (primary source expression whole) := by
  intro ts
  unfold primary
  split
  · exact .plain rfl _
  · exact .plain rfl _
  · -- a template is one token, whatever stands in it
    rename_i head parts o rest
    cases templateExprs whole parts with
    | error fault => trivial
    | ok parts => exact .plain rfl rest
  · exact .plain rfl _
  · rename_i o rest
    have hopen := skips_opening (s := .parenOpen) rfl o rest
    refine (hexpression rest).bind fun r hr => ?_
    exact ((keeps_expect source (skips_closing rfl)).behind (hopen.trans hr.inside)).bind
      fun r hr => hr
  · exact ((keeps_elements source hexpression rfl).behind (skips_opening rfl _ _)).map
      fun r hr => hr
  · exact ((keeps_entries source hexpression).behind (skips_opening rfl _ _)).map fun r hr => hr
  · cases found ts <;> trivial

end

/-! Parameters -/

theorem skips_paramNames? (h : paramNames? ts = some (ps, rest)) : Skips 1 0 ts rest := by
  fun_induction paramNames? ts generalizing ps rest with
  | case1 p o o' ts =>
    cases h
    exact (Skips.plain rfl _).inside.trans (skips_closing rfl _ _)
  | case2 p o o' ts ih =>
    obtain ⟨⟨qs, r⟩, hqs, hr⟩ := Option.map_eq_some_iff.1 h
    cases hr
    exact ((Skips.plain rfl _).inside.trans (.comma _ _)).trans (ih hqs)
  | case3 => cases h

theorem skips_arrowHead? (h : arrowHead? ts = some (ps, rest)) : Skips 0 0 ts rest := by
  unfold arrowHead? at h
  split at h
  · split at h
    · cases h
    · cases h
      exact (Skips.plain rfl _).trans (.plain rfl _)
  · rename_i o inner
    dsimp only at h
    split at h
    · rename_i heq
      cases h
      have hopen := skips_opening (s := .parenOpen) rfl o inner
      split at heq
      · cases heq
        exact (hopen.trans (skips_closing rfl _ _)).trans (.plain rfl _)
      · exact (hopen.trans (skips_paramNames? heq)).trans (.plain rfl _)
    · cases h
  · cases h

/-! ## Expressions -/

section

variable {below : Below} (hbelow : ∀ source goal, Keeps 0 0 (below source goal))
include hbelow

theorem keeps_operand (source : String) : Keeps 0 0 (operand below source) := by
  intro ts
  unfold operand
  split
  · rename_i op hop
    obtain ⟨t, ht, hunary⟩ := Option.bind_eq_some_iff.1 hop
    obtain ⟨rest, rfl⟩ := List.head?_eq_some_iff.1 ht
    have hplain : t.lexeme.isPlain = true :=
      isPlain_of_unary? (Option.isSome_of_eq_some hunary)
    exact ((hbelow source .unary).behind (.plain hplain rest)).map fun r hr => hr
  · refine (keeps_primary source (hbelow source .expression) (whole below) ts).bind fun r hr => ?_
    exact (keeps_suffixes source (hbelow source .expression) _ _).behind hr

theorem keeps_choice (source : String) : Keeps 0 0 (choice below source) := by
  intro ts
  refine (keeps_levels (keeps_operand hbelow source) (fun _ => isPlain_of_mem_levels) ts).bind
    fun (test, rest) hrest => ?_
  have hrest : Skips 0 0 ts rest := hrest
  dsimp only
  split
  · rename_i hstart
    obtain ⟨o, more, rfl⟩ := startsWith_iff.1 hstart
    refine ((hbelow source .expression).behind (hrest.trans (.plain rfl more))).bind
      fun (yes, rest) hrest => ?_
    refine ((keeps_expect source fun o rest => Skips.plain rfl rest).behind hrest).bind
      fun (_, rest) hrest => ?_
    exact ((hbelow source .expression).behind hrest).bind fun r hr => hr
  · exact hrest

theorem keeps_step (source : String) (goal : Goal) : Keeps 0 0 (step below source goal) := by
  intro ts
  cases goal with
  | unary => exact keeps_operand hbelow source ts
  | expression =>
    rw [step]
    split
    · rename_i harrow
      exact ((hbelow source .expression).behind (skips_arrowHead? harrow)).map fun r hr => hr
    · exact keeps_choice hbelow source ts

end

/-- **What is read as an expression opens what it closes**, and has its commas in between. -/
theorem keeps_parseAt (depth : Nat) (source : String) (goal : Goal) :
    Keeps 0 0 (parseAt depth source goal) := by
  induction depth generalizing source goal with
  | zero => exact fun ts => trivial
  | succ depth ih => exact keeps_step ih source goal

/-- A source is an expression if its tokens are read to the end, and there are some. -/
theorem parse_eq_ok_iff {e : Expr} :
    parse source = .ok e ↔ ∃ ts, lex source = .ok ts ∧ ts ≠ [] ∧
      parseAt maxDepth source .expression ts = .ok (e, []) := by
  constructor
  · intro h
    rw [parse, whole] at h
    obtain ⟨ts, hlex, h⟩ := exists_of_bind h
    split at h
    · cases h
    · rename_i hts
      obtain ⟨⟨e', rest⟩, hread, h⟩ := exists_of_bind h
      cases rest with
      | nil =>
        cases h
        exact ⟨ts, hlex, by simpa using hts, hread⟩
      | cons t rest =>
        obtain ⟨found, -, h⟩ := exists_of_bind h
        cases h
  · rintro ⟨ts, hlex, hts, hread⟩
    obtain ⟨t, ts, rfl⟩ := List.exists_cons_of_ne_nil hts
    exact whole_eq_ok hlex hread

/-- **The tokens of an expression have no comma outside brackets.** -/
theorem looseComma_eq_false {e : Expr} (h : parse source = .ok e)
    (hlex : lex source = .ok ts) : looseComma 0 ts = false := by
  obtain ⟨ts', hts', -, hread⟩ := parse_eq_ok_iff.1 h
  obtain rfl : ts' = ts := Except.ok.inj (hts'.symm.trans hlex)
  have hkeeps := keeps_parseAt maxDepth source .expression ts'
  rw [hread] at hkeeps
  exact hkeeps 0

end Expr
end Atoll
