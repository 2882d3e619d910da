import Atoll.Proofs.Blanks
import Atoll.Proofs.Commas

/-!
# Blanks around an expression do not matter

* `moved f ts` — the tokens at other offsets.
* `Tracks f p p'` — where `p` reads something, `p'` reads the same from the moved tokens; there is
  one lemma for each parser, and the sources that messages name may differ.
* `tracks_parseAt` — **an expression can be read wherever it stands**, by induction on how deeply it
  is nested.
* `lexFrom_append_blank`, `lexFrom_blank_append` — the lexer finds the same tokens when blanks
  follow, and moved ones when blanks stand in front.
* `parse_strip` — hence an expression is read the same without the blanks around it.
-/

set_option autoImplicit false

namespace Atoll
namespace Expr

open Text

variable {c : Char} {w : List Char} {source : String}

/-! ## Tokens at other offsets -/

/-- The tokens, each moved to another offset. -/
def moved (f : Nat → Nat) (ts : List Token) : List Token :=
  ts.map fun t => ⟨t.lexeme, f t.offset⟩

section

variable {f : Nat → Nat}

@[simp] theorem length_moved (ts : List Token) : (moved f ts).length = ts.length :=
  List.length_map _

theorem drop_moved (ts : List Token) (n : Nat) : (moved f ts).drop n = moved f (ts.drop n) :=
  List.map_drop.symm

@[simp] theorem startsWith_moved (s : Symbol) (ts : List Token) :
    startsWith s (moved f ts) = startsWith s ts := by
  cases ts with
  | nil => rfl
  | cons t ts =>
    obtain ⟨l, o⟩ := t
    cases l <;> rfl

theorem moved_eq_cons_cons {ts us : List Token} {l m : Lexeme} {o o' : Nat}
    (h : moved f ts = ⟨l, o⟩ :: ⟨m, o'⟩ :: us) : ∃ a b rest, ts = ⟨l, a⟩ :: ⟨m, b⟩ :: rest := by
  obtain ⟨⟨l, a⟩, ts, rfl, hl, h⟩ := List.map_eq_cons_iff.1 h
  obtain ⟨⟨m, b⟩, rest, rfl, hm, -⟩ := List.map_eq_cons_iff.1 h
  cases hl
  cases hm
  exact ⟨a, b, rest, rfl⟩

theorem paramNames?_moved (ts : List Token) :
    paramNames? (moved f ts) = (paramNames? ts).map fun (ps, r) => (ps, moved f r) := by
  fun_induction paramNames? ts with
  | case1 p o o' ts => rfl
  | case2 p o o' ts ih =>
    show (paramNames? (moved f ts)).map _ = _
    rw [ih, Option.map_map, Option.map_map]
    rfl
  | case3 ts hlast hmore =>
    rw [paramNames?.eq_3 (moved f ts)]
    · rfl
    · intro p o o' us h
      obtain ⟨o, o', ts, rfl⟩ := moved_eq_cons_cons h
      exact hlast p o o' ts rfl
    · intro p o o' us h
      obtain ⟨o, o', ts, rfl⟩ := moved_eq_cons_cons h
      exact hmore p o o' ts rfl

/-- The parameters behind an opening bracket, and what follows the closing one. -/
def params? (ts : List Token) : Option (List String × List Token) :=
  match ts with
  | ⟨.symbol .parenClose, _⟩ :: rest => some ([], rest)
  | _ => paramNames? ts

/-- Parameters that an arrow follows, and what is behind it. -/
def behindArrow? : Option (List String × List Token) → Option (List String × List Token)
  | some (ps, ⟨.symbol .arrow, _⟩ :: rest) => some (ps, rest)
  | _ => none

theorem arrowHead?_parenOpen (o : Nat) (rest : List Token) :
    arrowHead? (⟨.symbol .parenOpen, o⟩ :: rest) = behindArrow? (params? rest) :=
  rfl

theorem params?_moved (ts : List Token) :
    params? (moved f ts) = (params? ts).map fun (ps, r) => (ps, moved f r) := by
  have hnames := paramNames?_moved (f := f) ts
  match ts with
  | [] => rfl
  | ⟨l, o⟩ :: rest =>
    cases l with
    | symbol s => cases s <;> rfl
    | _ => exact hnames

theorem behindArrow?_moved (params : Option (List String × List Token)) :
    behindArrow? (params.map fun (ps, r) => (ps, moved f r)) =
      (behindArrow? params).map fun (ps, r) => (ps, moved f r) := by
  rcases params with _ | ⟨ps, _ | ⟨⟨l, o⟩, rest⟩⟩
  · rfl
  · rfl
  · cases l with
    | symbol s => cases s <;> rfl
    | _ => rfl

theorem arrowHead?_moved (ts : List Token) :
    arrowHead? (moved f ts) = (arrowHead? ts).map fun (ps, r) => (ps, moved f r) := by
  match ts with
  | [] => rfl
  | ⟨.symbol s, o⟩ :: rest =>
    cases s with
    | parenOpen =>
      show arrowHead? (⟨.symbol .parenOpen, f o⟩ :: moved f rest) = _
      rw [arrowHead?_parenOpen, arrowHead?_parenOpen, params?_moved, behindArrow?_moved]
    | _ => rfl
  | [⟨.name p, o⟩] => rfl
  | ⟨.name p, o⟩ :: ⟨l, o'⟩ :: rest =>
    cases l with
    | symbol s =>
      cases s with
      | arrow =>
        show (if (keyword? p).isSome then none else some ([p], moved f rest)) =
          (if (keyword? p).isSome then none else some ([p], rest)).map _
        split <;> rfl
      | _ => rfl
    | _ => rfl
  | ⟨.number n, o⟩ :: rest => rfl
  | ⟨.string s, o⟩ :: rest => rfl
  | ⟨.template head parts, o⟩ :: rest => rfl

end

/-! ## Parsers -/

/-- What `p` reads from tokens, `p'` reads from the same tokens elsewhere. -/
def Tracks {α : Type} (f : Nat → Nat) (p p' : Parser α) : Prop :=
  ∀ ⦃ts : List Token⦄ ⦃a : α⦄ ⦃rest : List Token⦄,
    p ts = .ok (a, rest) → p' (moved f ts) = .ok (a, moved f rest)

section

variable {f : Nat → Nat}

/-- Tracking parsers one after the other. -/
theorem Tracks.bind {α β : Type} {p p' : Parser α} (hp : Tracks f p p')
    {q q' : α × List Token → Except Fault (β × List Token)}
    (hq : ∀ a rest b more, q (a, rest) = .ok (b, more) →
      q' (a, moved f rest) = .ok (b, moved f more))
    {ts more : List Token} {b : β} (h : p ts >>= q = .ok (b, more)) :
    p' (moved f ts) >>= q' = .ok (b, moved f more) := by
  obtain ⟨⟨a, rest⟩, hread, h⟩ := exists_of_bind h
  rw [hp hread]
  exact hq a rest b more h

theorem Tracks.map {α β : Type} {p p' : Parser α} (hp : Tracks f p p') (g : α → β)
    {ts more : List Token} {b : β} (h : (p ts).map (fun (a, rest) => (g a, rest)) = .ok (b, more)) :
    (p' (moved f ts)).map (fun (a, rest) => (g a, rest)) = .ok (b, moved f more) := by
  obtain ⟨⟨a, rest⟩, hread, h⟩ := exists_of_map h
  rw [hp hread]
  cases h
  rfl

variable (source source' : String)

theorem tracks_expect (s : Symbol) : Tracks f (expect source s) (expect source' s) := by
  intro ts a rest h
  rw [expect] at h ⊢
  rw [startsWith_moved, drop_moved]
  split at h
  · rename_i hstart
    cases h
    rw [if_pos hstart]
  · obtain ⟨_, -, h⟩ := exists_of_bind h
    cases h

theorem tracks_propertyName : Tracks f (propertyName source) (propertyName source') := by
  intro ts a rest h
  rw [propertyName.eq_def] at h
  split at h
  · cases h
    rfl
  · cases h

theorem tracks_chain (op? : Symbol → Option (Expr → Expr → Expr)) {operand operand' : Parser Expr}
    (hoperand : Tracks f operand operand') (fuel : Nat) (left : Expr) :
    Tracks f (chain op? operand fuel left) (chain op? operand' fuel left) := by
  induction fuel generalizing left with
  | zero =>
    intro ts a rest h
    cases h
    rfl
  | succ fuel ih =>
    intro ts a rest h
    match ts with
    | [] =>
      cases h
      rfl
    | ⟨l, o⟩ :: more =>
      cases l with
      | symbol s =>
        show chain op? operand' (fuel + 1) left (⟨.symbol s, f o⟩ :: moved f more) = _
        cases hop : op? s with
        | none =>
          simp only [chain, hop] at h ⊢
          cases h
          rfl
        | some join =>
          simp only [chain, hop] at h ⊢
          exact hoperand.bind (fun right rest b more h => ih (join left right) h) h
      | _ =>
        cases h
        rfl

theorem tracks_levels {operand operand' : Parser Expr} (hoperand : Tracks f operand operand')
    (ops : List (Symbol → Option (Expr → Expr → Expr))) :
    Tracks f (ops.foldl leftAssociative operand) (ops.foldl leftAssociative operand') := by
  induction ops generalizing operand operand' with
  | nil => exact hoperand
  | cons op? ops ih =>
    refine ih fun ts a rest h => ?_
    refine hoperand.bind (fun left rest b more h => ?_) h
    dsimp only
    rw [length_moved]
    exact tracks_chain op? hoperand _ left h

/-! Lists -/

theorem tracks_separated {α : Type} {item item' : Parser α} (hitem : Tracks f item item')
    (closing : Symbol) (fuel : Nat) :
    Tracks f (separated source item closing fuel) (separated source' item' closing fuel) := by
  have hclose : Tracks f (expect source closing) (expect source' closing) :=
    tracks_expect source source' closing
  induction fuel with
  | zero => exact fun ts a rest h => hclose.map (fun _ => []) h
  | succ fuel ih =>
    intro ts a rest h
    rw [separated] at h ⊢
    rw [startsWith_moved, drop_moved]
    split at h
    · rename_i hstart
      cases h
      rw [if_pos hstart]
    · rename_i hstart
      rw [if_neg hstart]
      refine hitem.bind (fun x rest b more h => ?_) h
      dsimp only at h ⊢
      rw [startsWith_moved, drop_moved]
      split at h
      · rename_i hcomma
        rw [if_pos hcomma]
        refine ih.bind (fun xs rest b more h => ?_) h
        cases h
        rfl
      · rename_i hcomma
        rw [if_neg hcomma]
        refine hclose.bind (fun _ rest b more h => ?_) h
        cases h
        rfl

section

variable {expression expression' : Parser Expr} (hexpression : Tracks f expression expression')
include hexpression

theorem tracks_element : Tracks f (element expression) (element expression') := by
  intro ts a rest h
  match ts with
  | [] => exact hexpression.map _ h
  | ⟨l, o⟩ :: more =>
    cases l with
    | symbol s => cases s <;> exact hexpression.map _ h
    | _ => exact hexpression.map _ h

theorem tracks_elements (closing : Symbol) :
    Tracks f (elements source expression closing) (elements source' expression' closing) := by
  intro ts a rest h
  rw [elements, length_moved]
  exact tracks_separated source source' (tracks_element hexpression) closing _ h

theorem tracks_valueOf (key : Expr) :
    Tracks f (valueOf source expression key) (valueOf source' expression' key) := by
  intro ts a rest h
  refine (tracks_expect source source' .colon).bind (fun _ rest b more h => ?_) h
  refine hexpression.bind (fun value rest b more h => ?_) h
  cases h
  rfl

theorem tracks_keyInBrackets :
    Tracks f (keyInBrackets source expression) (keyInBrackets source' expression') := by
  intro ts a rest h
  refine hexpression.bind (fun key rest b more h => ?_) h
  refine (tracks_expect source source' .squareClose).bind (fun _ rest b more h => ?_) h
  cases h
  rfl

theorem tracks_entry : Tracks f (entry source expression) (entry source' expression') := by
  have hvalue := tracks_valueOf source source' hexpression
  intro ts a rest h
  rcases ts with _ | ⟨⟨l, o⟩, more⟩
  · cases h
  show entry source' expression' (⟨l, f o⟩ :: moved f more) = _
  cases l with
  | symbol s =>
    cases s with
    | dots => exact hexpression.map _ h
    | squareOpen =>
      refine hexpression.bind (fun key rest b more h => ?_) h
      exact (tracks_expect source source' .squareClose).bind (fun _ rest b more h => hvalue key h) h
    | _ => cases h
  | name id =>
    rw [entry] at h ⊢
    rw [startsWith_moved]
    split at h
    · rename_i hcolon
      rw [if_pos hcolon]
      exact hvalue _ h
    · rename_i hcolon
      rw [if_neg hcolon]
      cases h
      rfl
  | string s => exact hvalue _ h
  | number n =>
    rw [entry] at h ⊢
    cases htext : n.text? with
    | some s =>
      rw [htext] at h
      exact hvalue _ h
    | none =>
      rw [htext] at h
      cases h
  | template head parts => cases h

theorem tracks_entries :
    Tracks f (entries source expression) (entries source' expression') := by
  intro ts a rest h
  rw [entries, length_moved]
  exact tracks_separated source source' (tracks_entry source source' hexpression) _ _ h

/-! Operands -/

theorem tracks_suffixes (fuel : Nat) (e : Expr) :
    Tracks f (suffixes source expression fuel e) (suffixes source' expression' fuel e) := by
  have hproperty : Tracks f (propertyName source) (propertyName source') :=
    tracks_propertyName source source'
  have hkey := tracks_keyInBrackets source source' hexpression
  have hargs := tracks_elements source source' hexpression .parenClose
  induction fuel generalizing e with
  | zero =>
    intro ts a rest h
    cases h
    rfl
  | succ fuel ih =>
    intro ts a rest h
    match ts with
    | [] =>
      cases h
      rfl
    | ⟨.symbol s, o⟩ :: more =>
      cases s with
      | dot => exact hproperty.bind (fun id rest b more h => ih _ h) h
      | squareOpen => exact hkey.bind (fun key rest b more h => ih _ h) h
      | parenOpen => exact hargs.bind (fun args rest b more h => ih _ h) h
      | optional =>
        match more with
        | [] => exact hproperty.bind (fun id rest b more h => ih _ h) h
        | ⟨l, o⟩ :: more =>
          cases l with
          | symbol s =>
            cases s with
            | squareOpen => exact hkey.bind (fun key rest b more h => ih _ h) h
            | parenOpen => exact hargs.bind (fun args rest b more h => ih _ h) h
            | _ => exact hproperty.bind (fun id rest b more h => ih _ h) h
          | _ => exact hproperty.bind (fun id rest b more h => ih _ h) h
      | _ =>
        cases h
        rfl
    | ⟨.number _, _⟩ :: _ | ⟨.string _, _⟩ :: _ | ⟨.name _, _⟩ :: _ | ⟨.template _ _, _⟩ :: _ =>
      cases h
      rfl

theorem tracks_primary (whole : String → Except Fault Expr) :
    Tracks f (primary source expression whole) (primary source' expression' whole) := by
  intro ts a rest h
  match ts with
  | [] => cases h
  | ⟨.number _, _⟩ :: _ | ⟨.string _, _⟩ :: _ | ⟨.name _, _⟩ :: _ =>
    cases h
    rfl
  | ⟨.template head parts, o⟩ :: more =>
    obtain ⟨es, hes, h⟩ := exists_of_map h
    show (templateExprs whole parts).map (fun parts => (Expr.template head parts, moved f more)) = _
    rw [hes]
    cases h
    rfl
  | ⟨.symbol s, o⟩ :: more =>
    cases s with
    | parenOpen =>
      refine hexpression.bind (fun e rest b more h => ?_) h
      refine (tracks_expect source source' .parenClose).bind (fun _ rest b more h => ?_) h
      cases h
      rfl
    | squareOpen => exact (tracks_elements source source' hexpression .squareClose).map _ h
    | curlyOpen => exact (tracks_entries source source' hexpression).map _ h
    | _ => cases h

end

section

variable {below : Below}
  (hbelow : ∀ source source' goal, Tracks f (below source goal) (below source' goal))
include hbelow

theorem tracks_operand : Tracks f (operand below source) (operand below source') := by
  have hexpression := hbelow source source' .expression
  intro ts a rest h
  have hhead : (moved f ts).head?.bind (fun t => unary? t.lexeme) =
      ts.head?.bind fun t => unary? t.lexeme := by
    cases ts <;> rfl
  rw [operand, hhead]
  rw [operand] at h
  split at h
  · rename_i op hop
    rw [drop_moved]
    exact (hbelow source source' .unary).map _ h
  · refine (tracks_primary source source' hexpression (whole below)).bind
      (fun e rest b more h => ?_) h
    dsimp only
    rw [length_moved]
    exact tracks_suffixes source source' hexpression _ e h

theorem tracks_choice : Tracks f (choice below source) (choice below source') := by
  have hexpression := hbelow source source' .expression
  intro ts a rest h
  refine (tracks_levels (tracks_operand source source' hbelow) levels).bind
    (fun test rest b more h => ?_) h
  dsimp only at h ⊢
  rw [startsWith_moved, drop_moved]
  split at h
  · rename_i hstart
    rw [if_pos hstart]
    refine hexpression.bind (fun yes rest b more h => ?_) h
    refine (tracks_expect source source' .colon).bind (fun _ rest b more h => ?_) h
    refine hexpression.bind (fun no rest b more h => ?_) h
    cases h
    rfl
  · rename_i hstart
    rw [if_neg hstart]
    cases h
    rfl

theorem tracks_step (goal : Goal) :
    Tracks f (step below source goal) (step below source' goal) := by
  intro ts a rest h
  cases goal with
  | unary => exact tracks_operand source source' hbelow h
  | expression =>
    rw [step] at h ⊢
    rw [arrowHead?_moved]
    cases harrow : arrowHead? ts with
    | some r =>
      rw [harrow] at h
      exact (hbelow source source' .expression).map _ h
    | none =>
      rw [harrow] at h
      exact tracks_choice source source' hbelow h

end

/-- **An expression can be read wherever it stands.** -/
theorem tracks_parseAt (depth : Nat) (source source' : String) (goal : Goal) :
    Tracks f (parseAt depth source goal) (parseAt depth source' goal) := by
  induction depth generalizing source source' goal with
  | zero =>
    intro ts a rest h
    cases h
  | succ depth ih => exact tracks_step source source' ih goal

end

/-! ## Blanks behind a lexeme -/

theorem isDecimal_of_isBlank (h : isBlank c = true) : isDecimal c = false :=
  eq_false_of_isBlank (by decide) h

/-- The length of a sign that starts here. -/
def signLength : List Char → Nat
  | '+' :: _ => 1
  | '-' :: _ => 1
  | _ => 0

/-- The length of a decimal point that starts here, and of the digits behind it. -/
def fractionLength : List Char → Nat × Nat
  | '.' :: cs => (1, (cs.takeWhile isDecimal).length)
  | _ => (0, 0)

theorem exponentLength_cons (e : Char) (cs : List Char) :
    exponentLength (e :: cs) =
      if e == 'e' || e == 'E' then
        if ((cs.drop (signLength cs)).takeWhile isDecimal).length == 0 then 0
        else 1 + signLength cs + ((cs.drop (signLength cs)).takeWhile isDecimal).length
      else 0 :=
  rfl

theorem numberLength?_eq (s : List Char) :
    numberLength? s =
      let whole := (s.takeWhile isDecimal).length
      let (point, fraction) := fractionLength (s.drop whole)
      if whole == 0 && fraction == 0 then none
      else
        let digits := whole + point + fraction
        some (digits + exponentLength (s.drop digits)) :=
  rfl

/-- The pieces `q` go on with `w` behind the closing mark, and are the same if there is one. -/
def Pieces.Extends (q : Pieces) (w : List Char) (p : Pieces) : Prop :=
  q.2 = p.2.map (· ++ w) ∧ (p.2.isSome = true → q.1 = p.1)

theorem Pieces.Extends.push {p q : Pieces} (h : q.Extends w p) (c : Char) :
    (q.push c).Extends w (p.push c) := by
  rw [Pieces.Extends, Pieces.snd_push, Pieces.snd_push]
  refine ⟨h.1, fun hsome => ?_⟩
  have hfst := h.2 hsome
  obtain ⟨ps, r⟩ := p
  obtain ⟨qs, t⟩ := q
  cases hfst
  cases ps <;> rfl

theorem Pieces.Extends.cut {p q : Pieces} (h : q.Extends w p) : q.cut.Extends w p.cut :=
  ⟨h.1, fun hsome => congrArg ([] :: ·) (h.2 hsome)⟩

section

variable {w : List Char} (hw : ∀ c ∈ w, isBlank c = true)
include hw

/-- What is not blank ends in front of blanks. -/
theorem takeWhile_append_blank {p : Char → Bool} (hp : ∀ c, isBlank c = true → p c = false)
    (s : List Char) : (s ++ w).takeWhile p = s.takeWhile p := by
  induction s with
  | nil =>
    cases w with
    | nil => rfl
    | cons b bs => simp [hp b (hw b List.mem_cons_self)]
  | cons c cs ih => rw [List.cons_append, List.takeWhile_cons, List.takeWhile_cons, ih]

theorem takeWhile_isDecimal_append (s : List Char) :
    (s ++ w).takeWhile isDecimal = s.takeWhile isDecimal :=
  takeWhile_append_blank hw (fun _ => isDecimal_of_isBlank) s

theorem drop_blank (n : Nat) : ∀ c ∈ w.drop n, isBlank c = true :=
  fun c hc => hw c (List.mem_of_mem_drop hc)

theorem hexDigits?_append (c : Char) (cs : List Char) :
    hexDigits? (c :: cs ++ w) = hexDigits? (c :: cs) := by
  by_cases hc : c = '0'
  · subst hc
    cases cs with
    | nil =>
      cases w with
      | nil => rfl
      | cons b bs =>
        have hb : (b == 'x' || b == 'X') = false :=
          eq_false_of_isBlank (p := fun c => c == 'x' || c == 'X') rfl (hw b List.mem_cons_self)
        simp [hexDigits?, hb]
    | cons x cs =>
      have hdigits := takeWhile_append_blank hw (fun c => eq_false_of_isBlank (p := isHex) rfl) cs
      simp [hexDigits?, hdigits]
  · simp [hexDigits?, hc]

theorem signLength_append (s : List Char) : signLength (s ++ w) = signLength s := by
  match s, w, hw with
  | [], [], _ => rfl
  | [], b :: bs, hw =>
    have hb (d : Char) (hd : isBlank d = false) : b ≠ d :=
      ne_of_isBlank (hw b List.mem_cons_self) hd
    simp [signLength, hb '+' rfl, hb '-' rfl]
  | c :: cs, w, hw =>
    by_cases hplus : c = '+'
    · simp [signLength, hplus]
    · by_cases hminus : c = '-' <;> simp [signLength, hplus, hminus]

theorem exponentLength_append (s : List Char) : exponentLength (s ++ w) = exponentLength s := by
  cases s with
  | nil =>
    cases w with
    | nil => rfl
    | cons b bs =>
      have hb : (b == 'e' || b == 'E') = false :=
        eq_false_of_isBlank (p := fun c => c == 'e' || c == 'E') rfl (hw b List.mem_cons_self)
      simp [exponentLength, hb]
  | cons e cs =>
    rw [List.cons_append, exponentLength_cons, exponentLength_cons, signLength_append hw,
      List.drop_append, takeWhile_isDecimal_append (drop_blank hw _)]

theorem fractionLength_append (s : List Char) : fractionLength (s ++ w) = fractionLength s := by
  match s, w, hw with
  | [], [], _ => rfl
  | [], b :: bs, hw =>
    have hb : b ≠ '.' := ne_of_isBlank (hw b List.mem_cons_self) rfl
    simp [fractionLength, hb]
  | c :: cs, w, hw =>
    by_cases hc : c = '.'
    · subst hc
      rw [List.cons_append, fractionLength, fractionLength, takeWhile_isDecimal_append hw]
    · simp [fractionLength, hc]

theorem numberLength?_append (s : List Char) : numberLength? (s ++ w) = numberLength? s := by
  have hexponent (n : Nat) : exponentLength ((s ++ w).drop n) = exponentLength (s.drop n) := by
    rw [List.drop_append]
    exact exponentLength_append (drop_blank hw _) _
  have hfraction (n : Nat) : fractionLength ((s ++ w).drop n) = fractionLength (s.drop n) := by
    rw [List.drop_append]
    exact fractionLength_append (drop_blank hw _) _
  simp only [numberLength?_eq, takeWhile_isDecimal_append hw, hfraction, hexponent]

/-- A string that is not closed is not closed by blanks. -/
theorem quotedBody?_blank {quote : Char} (hquote : isBlank quote = false) :
    quotedBody? quote w = none := by
  induction w with
  | nil => rfl
  | cons b bs ih =>
    rw [List.forall_mem_cons] at hw
    have hslash : b ≠ '\\' := ne_of_isBlank hw.1 rfl
    have hclose : b ≠ quote := ne_of_isBlank hw.1 hquote
    simp [quotedBody?, hslash, hclose, ih hw.2]

omit hw in
theorem quotedBody?_cons {quote : Char} (hc : c ≠ '\\') (cs : List Char) :
    quotedBody? quote (c :: cs) =
      if c == quote then some [] else if c == '\n' || c == '\\' then none
      else (quotedBody? quote cs).map (c :: ·) := by
  simp [quotedBody?, hc]

theorem quotedBody?_append {quote : Char} (hquote : isBlank quote = false) (hne : quote ≠ '\\') :
    (s : List Char) → quotedBody? quote (s ++ w) = quotedBody? quote s
  | [] => quotedBody?_blank hw hquote
  | [c] => by
    by_cases hc : c = '\\'
    · -- a backslash at the end may get a blank behind it
      subst hc
      cases w with
      | nil => rfl
      | cons b bs =>
        have hblank := quotedBody?_blank (List.forall_mem_cons.1 hw).2 hquote
        simp [quotedBody?, hblank, hne.symm]
    · rw [List.cons_append, quotedBody?_cons hc, quotedBody?_cons hc, List.nil_append,
        quotedBody?_blank hw hquote]
      rfl
  | c :: d :: cs => by
    by_cases hc : c = '\\'
    · subst hc
      have ih := quotedBody?_append hquote hne cs
      simp only [List.cons_append, quotedBody?, ih]
    · have ih := quotedBody?_append hquote hne (d :: cs)
      rw [List.cons_append, quotedBody?_cons hc, quotedBody?_cons hc, ih]

/-- A template that is not closed is not closed by blanks. -/
theorem pieces_blank (mode : TemplateMode) : (pieces mode w).2 = none := by
  induction w with
  | nil => rw [pieces]
  | cons b bs ih =>
    rw [List.forall_mem_cons] at hw
    have hb (c : Char) (hc : isBlank c = false) : b ≠ c := ne_of_isBlank hw.1 hc
    have hpush : pieces mode (b :: bs) = (pieces mode bs).push b := by
      cases mode with
      | text => simp [pieces, hb '\x60' rfl, hb '\\' rfl, hb '$' rfl]
      | code depth => simp [pieces, hb '}' rfl, hb '{' rfl]
    rw [hpush, Pieces.snd_push]
    exact ih hw.2

theorem pieces_append (mode : TemplateMode) (s : List Char) :
    (pieces mode (s ++ w)).Extends w (pieces mode s) := by
  fun_induction pieces mode s with
  | case1 cs => exact ⟨rfl, fun _ => rfl⟩
  | case2 c cs ih => exact (ih.push c).push '\\'
  | case3 cs ih => exact ih.cut
  | case4 cs ih => exact ih.cut
  | case5 depth cs ih => exact ih.push '}'
  | case6 depth cs ih =>
    rw [List.cons_append, pieces]
    exact ih.push '{'
  | case7 mode c cs htick hescape hcode hclose hinner hopen ih =>
    match cs with
    | d :: cs =>
      have hcons : pieces mode (c :: d :: cs ++ w) = (pieces mode (d :: cs ++ w)).push c := by
        refine pieces.eq_7 mode c _ htick (fun c' cs' hm hc h => ?_) (fun cs' hm hc h => ?_) hclose
          hinner hopen
        · exact hescape d cs hm hc rfl
        · cases h
          exact hcode cs hm hc rfl
      rw [hcons]
      exact ih.push c
    | [] =>
      have hnone : (pieces mode (c :: w)).2 = none := by
        by_cases hlast : mode = .text ∧ c = '\\'
        · -- a backslash at the end may get a blank behind it
          obtain ⟨rfl, rfl⟩ := hlast
          cases w with
          | nil => rfl
          | cons b bs =>
            rw [pieces, Pieces.snd_push, Pieces.snd_push]
            exact pieces_blank (List.forall_mem_cons.1 hw).2 .text
        · rw [pieces.eq_7 mode c w htick (fun _ _ hm hc _ => hlast ⟨hm, hc⟩) ?_ hclose hinner hopen,
            Pieces.snd_push]
          · exact pieces_blank hw mode
          · rintro cs' - - rfl
            cases hw '{' List.mem_cons_self
      exact ⟨by simpa [pieces] using hnone, by simp [pieces]⟩
  | case8 mode => exact ⟨pieces_blank hw mode, nofun⟩

theorem after?_append {lead : List Char} (hlead : ∀ c ∈ lead, isBlank c = false) (s : List Char) :
    after? lead (s ++ w) = (after? lead s).map (· ++ w) := by
  induction lead generalizing s with
  | nil => rfl
  | cons a lead ih =>
    rw [List.forall_mem_cons] at hlead
    match s, w, hw with
    | [], [], _ => rfl
    | [], b :: bs, hw =>
      have hne : a ≠ b := (ne_of_isBlank (hw b List.mem_cons_self) hlead.1).symm
      simp [after?, List.isPrefixOf?, hne]
    | c :: cs, w, hw =>
      have hrest := ih hlead.2 cs
      simp only [after?, List.cons_append, List.isPrefixOf?] at hrest ⊢
      split
      · exact hrest
      · rfl

theorem symbol?_append (s : List Char) : symbol? (s ++ w) = symbol? s := by
  rw [symbol?, symbol?]
  congr 1
  funext symbol
  have htext : symbol.text.toList.all (fun c => !isBlank c) = true := by cases symbol <;> rfl
  have hafter : afterLiteral? symbol.text (s ++ w) = (afterLiteral? symbol.text s).map (· ++ w) :=
    after?_append hw (isBlank_of_all htext) s
  rw [hafter]
  cases afterLiteral? symbol.text s with
  | none => rfl
  | some rest =>
    have hhead : (rest ++ w).head?.any isDecimal = rest.head?.any isDecimal := by
      match rest, w, hw with
      | [], [], _ => rfl
      | [], b :: bs, hw => exact isDecimal_of_isBlank (hw b List.mem_cons_self)
      | c :: cs, w, hw => rfl
    show (!(symbol == .optional && (rest ++ w).head?.any isDecimal)) = _
    rw [hhead]

/-! ## Tokens with blanks around them -/

theorem scanTemplate_of_append (source' : String) {s : List Char} {r : Lexeme × Nat}
    (h : scanTemplate source (s ++ w) = .ok r) : scanTemplate source' s = .ok r := by
  obtain ⟨hrest, hsame⟩ := pieces_append hw .text s
  rw [scanTemplate] at h
  split at h
  · rename_i head more rest hpieces
    rw [hpieces] at hrest hsame
    obtain ⟨rest', hrest', rfl⟩ := Option.map_eq_some_iff.1 hrest.symm
    have hpieces' : pieces .text s = (head :: more, some rest') :=
      Prod.ext (hsame (by rw [hrest']; rfl)).symm hrest'
    have hlength : (s ++ w).length - (rest' ++ w).length = s.length - rest'.length := by
      simp only [List.length_append]
      omega
    rw [hlength] at h
    rw [scanTemplate, hpieces']
    exact h
  · split at h
    · obtain ⟨_, -, h⟩ := exists_of_bind h
      obtain ⟨_, -, h⟩ := exists_of_bind h
      cases h
    · cases h

theorem take_number {s : List Char} {n : Nat} (h : numberLength? (s ++ w) = some n) :
    (s ++ w).take n = s.take n := by
  have hparts := (Script.isNumberPart_number h).2
  rw [List.take_append] at hparts ⊢
  have hnil : w.take (n - s.length) = [] := by
    refine List.eq_nil_iff_forall_not_mem.2 fun b hb => ?_
    have hpart := hparts b (List.mem_append_right _ hb)
    have hblank : Script.isNumberPart b = false :=
      eq_false_of_isBlank (by decide) (hw b (List.mem_of_mem_take hb))
    rw [hblank] at hpart
    cases hpart
  rw [hnil, List.append_nil]

/-- **A lexeme does not need the blanks behind it.** -/
theorem scan_of_append (source' : String) (hc : isBlank c = false) {cs : List Char}
    {r : Option Lexeme × Nat} (h : scan source c (cs ++ w) = .ok r) :
    scan source' c cs = .ok r := by
  have hhex : hexDigits? (c :: (cs ++ w)) = hexDigits? (c :: cs) := hexDigits?_append hw c cs
  have hnumber : numberLength? (c :: (cs ++ w)) = numberLength? (c :: cs) :=
    numberLength?_append hw (c :: cs)
  have hsymbol : symbol? (c :: (cs ++ w)) = symbol? (c :: cs) := symbol?_append hw (c :: cs)
  have hname : (c :: (cs ++ w)).takeWhile isNamePart = (c :: cs).takeWhile isNamePart :=
    takeWhile_append_blank hw (fun c => eq_false_of_isBlank (p := isNamePart) rfl) (c :: cs)
  have hbody : (if c == '"' || c == '\'' then quotedBody? c (cs ++ w) else none) =
      if c == '"' || c == '\'' then quotedBody? c cs else none := by
    split
    · rename_i hquote
      rw [Bool.or_eq_true, beq_iff_eq, beq_iff_eq] at hquote
      exact quotedBody?_append hw hc (by rcases hquote with rfl | rfl <;> decide) cs
    · rfl
  rw [scan] at h ⊢
  dsimp only at h ⊢
  rw [hhex, hnumber, hbody, hsymbol, hname] at h
  split at h
  · rename_i htick
    rw [if_pos htick]
    obtain ⟨t, htemplate, hr⟩ := exists_of_map h
    rw [scanTemplate_of_append hw source' htemplate]
    exact congrArg Except.ok hr
  rename_i htick
  have hblank : ¬ isBlank c = true := by
    rw [hc]
    exact Bool.false_ne_true
  rw [if_neg htick]
  rw [if_neg hblank] at h ⊢
  cases hdigits : hexDigits? (c :: cs) with
  | some digits =>
    rw [hdigits] at h
    exact h
  | none =>
    rw [hdigits] at h
    cases hlength : numberLength? (c :: cs) with
    | some n =>
      have htake : (c :: (cs ++ w)).take n = (c :: cs).take n :=
        take_number hw (s := c :: cs) (hnumber.trans hlength)
      rw [hlength] at h
      dsimp only at h ⊢
      rw [htake] at h
      exact h
    | none =>
      rw [hlength] at h
      dsimp only at h ⊢
      -- only the message for an unexpected character names the source
      cases hsymbol : symbol? (c :: cs) with
      | some symbol =>
        rw [hsymbol] at h
        exact h
      | none =>
        rw [hsymbol] at h
        dsimp only at h ⊢
        split at h
        · exact h
        · split at h
          · rename_i hstart
            rw [if_pos hstart]
            exact h
          · cases h

end

/-- The lexer passes over blanks. -/
theorem lexFrom_trimStart (source : String) (offset : Nat) (s : List Char) :
    lexFrom source offset s =
      lexFrom source (offset + (s.takeWhile isBlank).length) (trimStart s) := by
  cases s with
  | nil => rw [trimStart, List.dropWhile_nil, lexFrom, lexFrom]
  | cons c cs =>
    cases hc : isBlank c with
    | false => simp [trimStart, hc]
    | true =>
      have htick : c ≠ '\x60' := ne_of_isBlank hc rfl
      have hscan : scan source c cs = .ok (none, ((c :: cs).takeWhile isBlank).length) := by
        simp [scan, htick, hc]
      have hpos : max ((c :: cs).takeWhile isBlank).length 1 =
          ((c :: cs).takeWhile isBlank).length := by
        simp [hc]
      have hdrop : cs.drop (((c :: cs).takeWhile isBlank).length - 1) = trimStart (c :: cs) := by
        simp [trimStart, hc, drop_takeWhile_length]
      rw [lexFrom, hscan]
      show (lexFrom source (offset + max ((c :: cs).takeWhile isBlank).length 1)
        (cs.drop (((c :: cs).takeWhile isBlank).length - 1)) >>= fun rest => .ok rest) = _
      rw [hpos, hdrop]
      cases lexFrom source (offset + ((c :: cs).takeWhile isBlank).length) (trimStart (c :: cs)) <;>
        rfl

theorem lexFrom_blank (source : String) (offset : Nat)
    (hw : ∀ c ∈ w, isBlank c = true) : lexFrom source offset w = .ok [] := by
  have hnil : trimStart w = [] := List.dropWhile_eq_nil_iff.2 hw
  rw [lexFrom_trimStart, hnil, lexFrom]

/-- **The lexer finds the same tokens without the blanks behind them**, at the offsets that belong
to the place at which it starts. -/
theorem lexFrom_of_append {source : String} (source' : String) {g : Nat → Nat} {s w : List Char}
    (hw : ∀ c ∈ w, isBlank c = true) {offset offset' : Nat} (hg : ∀ i, g (offset + i) = offset' + i)
    {ts : List Token} (h : lexFrom source offset (s ++ w) = .ok ts) :
    lexFrom source' offset' s = .ok (moved g ts) := by
  have hshift (k : Nat) : ∀ i, g (offset + k + i) = offset' + k + i := by
    intro i
    rw [Nat.add_assoc, hg, Nat.add_assoc]
  match s with
  | [] =>
    rw [List.nil_append, lexFrom_blank source offset hw] at h
    cases h
    rw [lexFrom]
    rfl
  | c :: cs =>
    cases hc : isBlank c with
    | false =>
      rw [List.cons_append, lexFrom] at h
      obtain ⟨⟨l?, n⟩, hscan, h⟩ := exists_of_bind h
      obtain ⟨rest, hrest, h⟩ := exists_of_bind h
      rw [List.drop_append] at hrest
      have ih : lexFrom source' (offset' + max n 1) (cs.drop (n - 1)) = .ok (moved g rest) :=
        lexFrom_of_append source' (drop_blank hw _) (hshift (max n 1)) hrest
      rw [lexFrom, scan_of_append hw source' hc hscan]
      show (lexFrom source' (offset' + max n 1) (cs.drop (n - 1)) >>= _) = _
      rw [ih]
      cases h
      cases l? with
      | none => rfl
      | some l =>
        have hoffset : g offset = offset' := hg 0
        show Except.ok (⟨l, offset'⟩ :: moved g rest) = .ok (⟨l, g offset⟩ :: moved g rest)
        rw [hoffset]
    | true =>
      by_cases hnil : trimStart (c :: cs) = []
      · have hblank : ∀ d ∈ c :: cs, isBlank d = true := List.dropWhile_eq_nil_iff.1 hnil
        rw [lexFrom_blank source offset (List.forall_mem_append.2 ⟨hblank, hw⟩)] at h
        cases h
        exact lexFrom_blank source' offset' hblank
      · obtain ⟨hdrop, htake⟩ := trimStart_append hnil w
        rw [lexFrom_trimStart, hdrop, htake] at h
        rw [lexFrom_trimStart]
        exact lexFrom_of_append source' hw (hshift _) h
  termination_by s.length
  decreasing_by
    · simp only [List.length_cons, List.length_drop]
      omega
    · have hle : (cs.dropWhile isBlank).length ≤ cs.length := List.length_dropWhile_le isBlank cs
      simp only [trimStart, List.dropWhile_cons, hc, if_true, List.length_cons]
      omega

/-! ## Expressions with blanks around them -/

/-- **An expression is read the same without the blanks around it.** -/
theorem parse_strip {e : Expr} (h : parse source = .ok e) : parse (strip source) = .ok e := by
  obtain ⟨ts, hlex, hts, hread⟩ := parse_eq_ok_iff.1 h
  obtain ⟨w, hw, hsource⟩ := exists_trimEnd_append (trimStart source.toList)
  have hmoved : lex (strip source) =
      .ok (moved (· - (source.toList.takeWhile isBlank).length) ts) := by
    rw [lex, lexFrom_trimStart, hsource] at hlex
    rw [lex, strip, String.toList_ofList]
    exact lexFrom_of_append _ hw (fun i => by omega) hlex
  refine parse_eq_ok_iff.2 ⟨_, hmoved, ?_, tracks_parseAt _ source _ _ hread⟩
  rintro hnil
  exact hts (List.map_eq_nil_iff.1 hnil)

end Expr
end Atoll
