import Atoll.Proofs.Levels

/-!
# How expressions start

An opening bracket may start the parameters of an arrow function as well as an expression, and so
may a name.  The parser decides by looking for the arrow, however far ahead it is.  Here it is shown
to decide right.

* `noParams`, `noArrow` — lexemes that cannot be parameters behind their bracket, or the head of an
  arrow function.  Both look at two or three lexemes.
* `opening` — **every expression that is no arrow function starts with such lexemes**, by recursion
  along its leftmost parts.
* `arrowHead?_eq_none`, `arrowHead?_spells` — so the parser finds the head of an arrow function
  exactly where one was printed.
-/

set_option autoImplicit false

namespace Atoll
namespace Expr

variable {s : Symbol} {ts : List Token} {l : Lexeme}

/-! ## The first lexemes -/

/-- The symbols an expression may start with. -/
def Symbol.opens : Symbol → Bool
  | .parenOpen | .squareOpen | .curlyOpen | .bang | .minus | .plus => true
  | _ => false

/-- Whether a lexeme is not the given symbol. -/
def Lexeme.isNot (s : Symbol) : Lexeme → Bool
  | .symbol t => t != s
  | _ => true

/-- Whether lexemes behind an opening bracket start an expression and are no parameters. -/
def noParams : List Lexeme → Bool
  | [] => false
  | .symbol s :: _ => s.opens
  | .name _ :: ls => ls.head?.any fun l => l.isNot .parenClose && l.isNot .comma
  | _ => true

/-- Whether lexemes start an expression that is no arrow function, if no arrow is behind them. -/
def noArrow : List Lexeme → Bool
  | [] => false
  | .symbol .parenOpen :: ls => noParams ls
  | .symbol s :: _ => s.opens
  | .name _ :: ls => ls.head?.all fun l => l.isNot .arrow
  | _ => true

theorem Lexeme.isNot_symbol {t : Symbol} (h : t ≠ s) : (Lexeme.symbol t).isNot s = true :=
  bne_iff_ne.mpr h

theorem Lexeme.ne_of_isNot (h : l.isNot s = true) : l ≠ .symbol s := by
  rintro rfl
  exact bne_iff_ne.mp h rfl

section

variable {ls : List Lexeme}

theorem noParams_append (h : noParams ls = true) (ms : List Lexeme) :
    noParams (ls ++ ms) = true := by
  cases ls with
  | nil => cases h
  | cons l ls =>
    cases l with
    | symbol s => exact h
    | name x =>
      cases ls with
      | nil => cases h
      | cons m ls => exact h
    | number n => rfl
    | string s => rfl
    | template head parts => rfl

theorem noArrow_append (h : noArrow ls = true) (hl : l.isNot .arrow = true)
    (ms : List Lexeme) : noArrow (ls ++ l :: ms) = true := by
  cases ls with
  | nil => cases h
  | cons m ls =>
    cases m with
    | symbol s =>
      cases s with
      | parenOpen => exact noParams_append h _
      | _ => exact h
    | name x =>
      cases ls with
      | nil => exact hl
      | cons m ls => exact h
    | number n => rfl
    | string s => rfl
    | template head parts => rfl

theorem noParams_name_cons (x : String) (hclose : l.isNot .parenClose = true)
    (hcomma : l.isNot .comma = true) (ms : List Lexeme) : noParams (.name x :: l :: ms) = true := by
  show (l.isNot .parenClose && l.isNot .comma) = true
  rw [hclose, hcomma]
  rfl

/-- What an expression starts with does not close or separate anything. -/
theorem isNot_of_noParams (h : noParams (l :: ls) = true)
    (hs : s.opens = false) : l.isNot s = true := by
  cases l with
  | symbol t =>
    refine bne_iff_ne.mpr ?_
    rintro rfl
    exact Bool.false_ne_true (hs.symm.trans h)
  | _ => rfl

end

/-- How the lexemes of an expression start. -/
structure Opening (e : Expr) : Prop where
  /-- With anything but parameters, unless they are a single name. -/
  params : (e.level = 9 ∧ ∃ x, e.lexemes = [.name x]) ∨ noParams e.lexemes = true
  /-- With anything but the head of an arrow function, unless they are one. -/
  arrow : noArrow e.lexemes = true ∨ ∃ params body, e = .arrow params body

namespace Opening

variable {e : Expr} {n : Nat}

theorem within_params (h : Opening e) (n : Nat) :
    (∃ x, within n e = [.name x]) ∨ noParams (within n e) = true := by
  unfold within atLevel
  split
  · exact .inr rfl
  · exact h.params.imp_left And.right

theorem within_arrow (h : Opening e) (hpos : 1 ≤ n) (hle : n ≤ 9) :
    noArrow (within n e) = true := by
  unfold within atLevel
  split
  · rename_i hlt
    rcases h.params with ⟨hlevel, _⟩ | hparams
    · omega
    · exact noParams_append hparams _
  · rename_i hge
    rcases h.arrow with harrow | ⟨params, body, rfl⟩
    · exact harrow
    · exact absurd hpos (by simp [level] at hge; omega)

/-- An expression that starts with an expression. -/
theorem of_left {left : Expr} (h : Opening left) (hpos : 1 ≤ n) (hle : n ≤ 9) {ms : List Lexeme}
    (he : e.lexemes = within n left ++ .symbol s :: ms) (hs : s.level?.isSome = true)
    (harrow : s ≠ .arrow) : Opening e := by
  have hne : ∀ t : Symbol, t.level? = none → s ≠ t := by
    rintro t ht rfl
    rw [ht] at hs
    cases hs
  refine ⟨.inr ?_, .inl ?_⟩
  · rw [he]
    rcases h.within_params n with ⟨x, hx⟩ | hparams
    · rw [hx]
      exact noParams_name_cons x (Lexeme.isNot_symbol (hne _ rfl))
        (Lexeme.isNot_symbol (hne _ rfl)) ms
    · exact noParams_append hparams _
  · rw [he]
    exact noArrow_append (h.within_arrow hpos hle) (Lexeme.isNot_symbol harrow) ms

/-- An operator between operands. -/
theorem of_operator {left : Expr} (h : Opening left) (hpos : 1 ≤ n) (hle : n ≤ 7)
    {join : Expr → Expr → Expr} (hop : infixes n s = some join) {ms : List Lexeme}
    (he : e.lexemes = within n left ++ .symbol s :: ms) : Opening e := by
  have hs := level?_of_infixes hpos hle hop
  refine h.of_left hpos (by omega) he (by rw [hs]; rfl) ?_
  rintro rfl
  -- the arrow is looser than all of them
  cases hs
  omega

/-- The first lexeme of an expression. -/
theorem within_head (h : Opening e) (n : Nat) : ∃ l ls, within n e = l :: ls ∧
    ∀ s : Symbol, s.opens = false → l.isNot s = true := by
  rcases h.within_params n with ⟨x, hx⟩ | hparams
  · exact ⟨.name x, [], hx, fun s _ => rfl⟩
  · cases hls : within n e with
    | nil =>
      rw [hls] at hparams
      cases hparams
    | cons l ls =>
      rw [hls] at hparams
      exact ⟨l, ls, rfl, fun s => isNot_of_noParams hparams⟩

/-- The word in front of an operand starts no parameters and no arrow function. -/
theorem of_word {operand : Expr} (h : Opening operand) {x : String}
    (he : e.lexemes = .name x :: within n operand) : Opening e := by
  obtain ⟨l, ls, hls, hl⟩ := h.within_head n
  rw [hls] at he
  refine ⟨.inr ?_, .inl ?_⟩
  · rw [he]
    exact noParams_name_cons x (hl _ rfl) (hl _ rfl) ls
  · rw [he]
    exact hl _ rfl

end Opening

theorem accessLexemes_eq_cons (key : Expr) (optional : Bool) (ls : List Lexeme) :
    ∃ s ms, accessLexemes key optional ls = .symbol s :: ms ∧ s.level? = some 9 := by
  unfold accessLexemes
  split
  · cases optional with
    | true => exact ⟨_, _, rfl, rfl⟩
    | false => exact ⟨_, _, rfl, rfl⟩
  · cases optional with
    | true => exact ⟨_, _, rfl, rfl⟩
    | false => exact ⟨_, _, rfl, rfl⟩

/-- **Every expression starts like one**: only arrow functions look like arrow functions. -/
theorem opening (e : Expr) (h : e.isPrintable = true) : Opening e := by
  match e, h with
  | .literal v, h =>
    cases v with
    | undefined => exact ⟨.inl ⟨rfl, _, rfl⟩, .inl rfl⟩
    | null => exact ⟨.inl ⟨rfl, _, rfl⟩, .inl rfl⟩
    | bool b => cases b <;> exact ⟨.inl ⟨rfl, _, rfl⟩, .inl rfl⟩
    | number n => exact ⟨.inr rfl, .inl rfl⟩
    | string s => exact ⟨.inr rfl, .inl rfl⟩
  | .name id, _ => exact ⟨.inl ⟨rfl, id, rfl⟩, .inl rfl⟩
  | .template _ _, h => cases h
  | .array items, _ => exact ⟨.inr rfl, .inl rfl⟩
  | .object entries, _ => exact ⟨.inr rfl, .inl rfl⟩
  | .member target key optional, h =>
    rw [isPrintable, Bool.and_eq_true] at h
    obtain ⟨s, ms, hms, hs⟩ := accessLexemes_eq_cons key optional key.lexemes
    have he := lexemes_member target key optional
    rw [hms] at he
    refine (opening target h.1).of_left (by decide) (by decide) he (by rw [hs]; rfl) ?_
    rintro rfl
    cases hs
  | .call callee args, h =>
    rw [isPrintable, Bool.and_eq_true] at h
    exact (opening callee h.1).of_left (by decide) (by decide) (lexemes_call callee args) rfl
      (by decide)
  | .unary op operand, h =>
    have he := lexemes_unary operand op
    cases op with
    | typeof => exact (opening operand h).of_word he
    | not => exact ⟨.inr (by rw [he]; rfl), .inl (by rw [he]; rfl)⟩
    | neg => exact ⟨.inr (by rw [he]; rfl), .inl (by rw [he]; rfl)⟩
    | pos => exact ⟨.inr (by rw [he]; rfl), .inl (by rw [he]; rfl)⟩
  | .binary op left right, h =>
    rw [isPrintable, Bool.and_eq_true] at h
    have hop := op.level_bounds
    exact (opening left h.1).of_operator hop.1 hop.2 (infixes_binary op)
      (lexemes_binary left right op)
  | .logical op left right, h =>
    rw [isPrintable, Bool.and_eq_true] at h
    have hop := op.level_bounds
    exact (opening left h.1).of_operator hop.1 hop.2 (infixes_logical op)
      (lexemes_logical left right op)
  | .conditional test yes no, h =>
    rw [isPrintable, Bool.and_eq_true, Bool.and_eq_true] at h
    exact (opening test h.1.1).of_left (by decide) (by decide) (lexemes_conditional test yes no) rfl
      (by decide)
  | .arrow params body, h =>
    refine ⟨.inr ?_, .inr ⟨params, body, rfl⟩⟩
    rw [lexemes]
    match params with
    | [] => rfl
    | [_] => rfl
    | _ :: _ :: _ => rfl

/-! ## Arrow functions -/

theorem paramNames?_eq_none (h : noParams (ts.map Token.lexeme) = true) :
    paramNames? ts = none := by
  unfold paramNames?
  split
  · cases h
  · cases h
  · rfl

/-- Where no arrow function is spelled, the parser finds no head of one. -/
theorem arrowHead?_eq_none (h : noArrow (ts.map Token.lexeme) = true) : arrowHead? ts = none := by
  unfold arrowHead?
  split
  · cases h
  · simp only
    split
    · rename_i hparams
      split at hparams
      · cases h
      · rw [paramNames?_eq_none h] at hparams
        cases hparams
    · rfl
  · rfl

/-- No arrow comes up behind the lexemes either. -/
theorem noArrow_spells {rest : List Token} {ls : List Lexeme} (hts : Spells ts ls)
    (h : noArrow ls = true) (hstop : stops 0 rest = true) :
    noArrow ((ts ++ rest).map Token.lexeme) = true := by
  rw [List.map_append, show ts.map Token.lexeme = ls from hts]
  cases rest with
  | nil => rwa [List.map_nil, List.append_nil]
  | cons t rest =>
    refine noArrow_append h ?_ _
    obtain ⟨l, o⟩ := t
    cases l with
    | symbol s =>
      refine Lexeme.isNot_symbol ?_
      rintro rfl
      cases hstop
    | _ => rfl

theorem paramNames?_spells {p : String} {ps : List String}
    (hts : Spells ts (commas ((p :: ps).map fun p => [.name p]))) (o : Nat) (rest : List Token) :
    paramNames? (ts ++ ⟨.symbol .parenClose, o⟩ :: rest) = some (p :: ps, rest) := by
  induction ps generalizing p ts with
  | nil =>
    rw [List.map_singleton, commas_singleton] at hts
    obtain ⟨_, rfl⟩ := hts.singleton_inv
    rfl
  | cons q ps ih =>
    rw [List.map_cons, List.map_cons, commas_cons_cons] at hts
    obtain ⟨_, us, rfl, hus⟩ := hts.cons_inv
    obtain ⟨_, vs, rfl, hvs⟩ := hus.cons_inv
    have hmore := ih hvs
    simp [paramNames?, hmore]

/-- The parameters of an arrow function and its arrow. -/
theorem arrowHead?_spells {params : List String} (hparams : params.all isIdentifier = true)
    (hts : Spells ts (paramLexemes params)) (o : Nat) (rest : List Token) :
    arrowHead? (ts ++ ⟨.symbol .arrow, o⟩ :: rest) = some (params, rest) := by
  match params with
  | [] =>
    obtain ⟨_, us, _, rfl, hus⟩ := hts.enclosed_inv
    obtain rfl : us = [] := List.map_eq_nil_iff.mp hus
    rfl
  | [p] =>
    obtain ⟨_, rfl⟩ := hts.singleton_inv
    have hkeyword : (keyword? p).isSome = false := by
      simp [isIdentifier] at hparams
      simp [hparams]
    simp [arrowHead?, hkeyword]
  | p :: q :: ps =>
    obtain ⟨_, us, c, rfl, hus⟩ := hts.enclosed_inv
    have hnames := paramNames?_spells hus c (⟨.symbol .arrow, o⟩ :: rest)
    obtain ⟨_, vs, rfl, _⟩ := hus.cons_inv
    simp only [List.cons_append] at hnames
    simp [arrowHead?, hnames]

end Expr
end Atoll
