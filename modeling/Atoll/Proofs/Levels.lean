import Atoll.Proofs.Scanner

/-!
# The levels of the grammar

The operators between operands make up seven levels, each a loop over operands of the next tighter
one; members and calls are a loop of the same kind over single operands.  Such a loop goes on as
long as it can, so what it has read so far is not yet its answer.  This file says what a level has
done when an expression of that level is read and the rest of the source is still ahead.

* `stops n ts` — an expression of level `n` is over in front of these tokens.
* `parserAt n`, `loopAt n` — the parser for a level, and how it goes on behind an expression.
* `ReadsAt source d n ls e` — at level `n` the lexemes `ls` are read as `e`, and the loop of that
  level goes on behind them.  If the level stops there, `e` is what it returns (`ReadsAt.takes`),
  and what is read at one level is read at all looser ones (`ReadsAt.mono`).
* `readsAt_infix`, `readsAt_suffix` — one more round of a loop: an operator with its right operand,
  a member or a call.
* `readsAt_primary`, `readsAt_enclosed` — what stands at the start.
* `separated_spells` — items with commas between them.
-/

set_option autoImplicit false

namespace Atoll
namespace Expr

variable {α : Type} {n : Nat} {ts rest : List Token} {s closing : Symbol} {source : String}
  {item : Parser α} {join : Expr → Expr → Expr}

/-! ## Tokens that spell lexemes -/

namespace Spells

variable {ts : List Token} {l : Lexeme} {ls ms : List Lexeme}

theorem cons_inv (h : Spells ts (l :: ls)) : ∃ o us, ts = ⟨l, o⟩ :: us ∧ Spells us ls := by
  obtain ⟨t, us, rfl, rfl, hus⟩ := List.map_eq_cons_iff.mp h
  exact ⟨t.offset, us, rfl, hus⟩

theorem append_inv (h : Spells ts (ls ++ ms)) :
    ∃ us vs, ts = us ++ vs ∧ Spells us ls ∧ Spells vs ms :=
  List.map_eq_append_iff.mp h

theorem singleton_inv (h : Spells ts [l]) : ∃ o, ts = [⟨l, o⟩] := by
  obtain ⟨o, us, rfl, hus⟩ := cons_inv h
  obtain rfl : us = [] := List.map_eq_nil_iff.mp hus
  exact ⟨o, rfl⟩

/-- Brackets around something. -/
theorem enclosed_inv {opening : Symbol} (h : Spells ts (enclosed opening closing ls)) :
    ∃ o us p, ts = ⟨.symbol opening, o⟩ :: (us ++ [⟨.symbol closing, p⟩]) ∧ Spells us ls := by
  obtain ⟨o, ts, rfl, hts⟩ := cons_inv h
  obtain ⟨us, vs, rfl, hus, hvs⟩ := append_inv hts
  obtain ⟨p, rfl⟩ := singleton_inv hvs
  exact ⟨o, us, p, rfl, hus⟩

end Spells

/-! ## Where a level of the grammar stops -/

/-- The level of the grammar at which a symbol goes on with an expression in front of it. -/
def Symbol.level? : Symbol → Option Nat
  | .question | .arrow => some 0
  | .nullish => some 1
  | .or => some 2
  | .and => some 3
  | .strictEq | .strictNe | .looseEq | .looseNe => some 4
  | .lt | .le | .gt | .ge => some 5
  | .plus | .minus => some 6
  | .star | .slash | .percent => some 7
  | .dot | .optional | .squareOpen | .parenOpen => some 9
  | _ => none

/-- Whether an expression of level `n` is over in front of these tokens: what stands there, if it
goes on with an expression at all, does so at a looser level. -/
def stops (n : Nat) : List Token → Bool
  | ⟨.symbol s, _⟩ :: _ => s.level?.all (· < n)
  | _ => true

theorem stops_mono {m : Nat} (h : m ≤ n) (hm : stops m ts = true) : stops n ts = true := by
  unfold stops at hm ⊢
  split at hm
  · rename_i s _ _
    cases hs : s.level? with
    | none => rfl
    | some k =>
      rw [hs, Option.all_some, decide_eq_true_eq] at hm
      rw [Option.all_some, decide_eq_true_eq]
      omega
  · rfl

/-- Nothing goes on behind members and calls. -/
theorem stops_ten (ts : List Token) : stops 10 ts = true := by
  unfold stops
  split
  · rename_i s _ _
    cases s <;> rfl
  · rfl

/-- The operators of a level between operands. -/
def infixes (n : Nat) : Symbol → Option (Expr → Expr → Expr) :=
  levels.getD (7 - n) fun _ => none

theorem infixes_binary (op : BinaryOp) : infixes op.level op.symbol = some (.binary op) := by
  cases op <;> rfl

theorem infixes_logical (op : LogicalOp) : infixes op.level op.symbol = some (.logical op) := by
  cases op <;> rfl

/-- A symbol is an operator of its own level only. -/
theorem isSome_infixes (hpos : 1 ≤ n) (hle : n ≤ 7) (s : Symbol) :
    (infixes n s).isSome = (s.level? == some n) := by
  interval_cases n <;> cases s <;> rfl

theorem level?_of_infixes (hpos : 1 ≤ n) (hle : n ≤ 7)
    (h : infixes n s = some join) : s.level? = some n := by
  have hsome := isSome_infixes hpos hle s
  rw [h, Option.isSome_some] at hsome
  exact eq_of_beq hsome.symm

/-! ## The levels of the parser -/

section

variable (below : Below) (source : String)

/-- The parser for a level: an operand for the two tightest levels, and one more layer of operators
for each looser one. -/
def parserAt (n : Nat) : Parser Expr :=
  (levels.take (8 - n)).foldl leftAssociative (operand below source)

/-- How a level goes on behind an expression that is already read. -/
def loopAt (n fuel : Nat) (e : Expr) : Parser Expr :=
  if n ≤ 7 then chain (infixes n) (parserAt below source (n + 1)) fuel e
  else if n = 8 then fun ts => .ok (e, ts)
  else suffixes source (below source .expression) fuel e

end

theorem parserAt_eq (below : Below) (source : String) (hpos : 1 ≤ n) (hle : n ≤ 7) :
    parserAt below source n = leftAssociative (parserAt below source (n + 1)) (infixes n) := by
  interval_cases n <;> rfl

theorem chain_stops (hpos : 1 ≤ n) (hle : n ≤ 7) (operand : Parser Expr) (fuel : Nat) (e : Expr)
    (h : stops n rest = true) : chain (infixes n) operand fuel e rest = .ok (e, rest) := by
  cases fuel with
  | zero => rfl
  | succ fuel =>
    unfold chain
    split
    · rename_i s _ _
      split
      · rename_i join hjoin
        rw [stops, level?_of_infixes hpos hle hjoin, Option.all_some, decide_eq_true_eq] at h
        omega
      · rfl
    · rfl

theorem suffixes_stops (source : String) (expression : Parser Expr) (fuel : Nat) (e : Expr)
    (h : stops 9 rest = true) : suffixes source expression fuel e rest = .ok (e, rest) := by
  cases fuel with
  | zero => rfl
  | succ fuel =>
    unfold suffixes
    split
    · cases h
    · cases h
    · cases h
    · cases h
    · cases h
    · cases h
    · rfl

theorem loopAt_stops (below : Below) (source : String) (hpos : 1 ≤ n) (hle : n ≤ 9) (fuel : Nat)
    (e : Expr) (h : stops n rest = true) : loopAt below source n fuel e rest = .ok (e, rest) := by
  unfold loopAt
  split
  · rename_i hn
    exact chain_stops hpos hn _ fuel e h
  · split
    · rfl
    · exact suffixes_stops _ _ fuel e (stops_mono hle h)

/-! ## Reading at a level -/

/-- The parser takes what the lexemes spell and leaves the rest, where a level `n` stops. -/
def Takes {α : Type} (p : Parser α) (n : Nat) (ls : List Lexeme) (a : α) : Prop :=
  ∀ ts rest, Spells ts ls → stops n rest = true → p (ts ++ rest) = .ok (a, rest)

/-- At level `n` the lexemes are read as the expression, and then the level goes on behind it.  The
number of steps left to its loop is enough for all that is ahead. -/
def ReadsAt (source : String) (d n : Nat) (ls : List Lexeme) (e : Expr) : Prop :=
  ∀ ts rest, Spells ts ls → stops (n + 1) rest = true → ∃ fuel, rest.length ≤ fuel ∧
    parserAt (parseAt d) source n (ts ++ rest) = loopAt (parseAt d) source n fuel e rest

section

variable {source : String} {d n : Nat} {ls : List Lexeme} {e : Expr}

theorem ReadsAt.takes (h : ReadsAt source d n ls e) (hpos : 1 ≤ n) (hle : n ≤ 9) :
    Takes (parserAt (parseAt d) source n) n ls e := by
  intro ts rest hts hstop
  obtain ⟨fuel, _, hread⟩ := h ts rest hts (stops_mono (Nat.le_succ n) hstop)
  rw [hread]
  exact loopAt_stops _ _ hpos hle fuel e hstop

/-- What is read at a level is read at the next looser one. -/
theorem ReadsAt.looser (h : ReadsAt source d (n + 1) ls e) (hpos : 1 ≤ n) (hle : n ≤ 8) :
    ReadsAt source d n ls e := by
  intro ts rest hts hstop
  have htakes := h.takes (by omega) (by omega) ts rest hts hstop
  refine ⟨rest.length, Nat.le_refl _, ?_⟩
  rcases Nat.lt_or_ge n 8 with hlt | hge
  · rw [parserAt_eq _ _ hpos (by omega), leftAssociative, htakes, loopAt, if_pos (by omega)]
    rfl
  · obtain rfl : n = 8 := by omega
    exact htakes

theorem ReadsAt.mono {m : Nat} (h : ReadsAt source d n ls e) (hpos : 1 ≤ m) (hmn : m ≤ n)
    (hle : n ≤ 9) : ReadsAt source d m ls e := by
  induction n, hmn using Nat.le_induction with
  | base => exact h
  | succ n hmn ih => exact ih (h.looser (by omega) (by omega)) (by omega)

/-- An operator between operands: the left one is read at its own level, the right one at the next
tighter. -/
theorem readsAt_infix {left right : Expr} {rs : List Lexeme} (hpos : 1 ≤ n) (hle : n ≤ 7)
    (hop : infixes n s = some join) (hleft : ReadsAt source d n ls left)
    (hright : ReadsAt source d (n + 1) rs right) :
    ReadsAt source d n (ls ++ .symbol s :: rs) (join left right) := by
  intro ts rest hts hstop
  obtain ⟨us, ws, rfl, hus, hws⟩ := hts.append_inv
  obtain ⟨o, vs, rfl, hvs⟩ := hws.cons_inv
  have hs : stops (n + 1) (⟨.symbol s, o⟩ :: (vs ++ rest)) = true := by
    rw [stops, level?_of_infixes hpos hle hop, Option.all_some, decide_eq_true_eq]
    omega
  obtain ⟨fuel, hfuel, hread⟩ := hleft us _ hus hs
  rw [List.length_cons, List.length_append] at hfuel
  obtain ⟨fuel, rfl⟩ : ∃ f, fuel = f + 1 := ⟨fuel - 1, by omega⟩
  refine ⟨fuel, by omega, ?_⟩
  rw [List.append_assoc, List.cons_append, hread]
  -- one step of the loop takes the operator and the right operand
  simp only [loopAt, if_pos hle, chain, hop]
  rw [hright.takes (by omega) (by omega) vs rest hvs hstop]
  rfl

/-- An operand that is no operator with an operand behind it. -/
theorem readsAt_primary {l : Lexeme} (hl : unary? l = none)
    (h : ∀ ts rest, Spells ts (l :: ls) →
      primary source (parseAt d source .expression) (whole (parseAt d)) (ts ++ rest) =
        .ok (e, rest)) :
    ReadsAt source d 9 (l :: ls) e := by
  intro ts rest hts _
  refine ⟨rest.length, Nat.le_refl _, ?_⟩
  have hprimary := h ts rest hts
  obtain ⟨o, us, rfl, _⟩ := hts.cons_inv
  show operand (parseAt d) source (⟨l, o⟩ :: us ++ rest) = _
  rw [operand]
  simp only [List.cons_append, List.head?_cons, Option.bind_some, hl]
  rw [← List.cons_append, hprimary]
  rfl

/-- Round brackets. -/
theorem readsAt_enclosed (h : Takes (parseAt d source .expression) 0 ls e) :
    ReadsAt source d 9 (enclosed .parenOpen .parenClose ls) e := by
  refine readsAt_primary rfl fun ts rest hts => ?_
  obtain ⟨o, us, p, rfl, hus⟩ := hts.enclosed_inv
  have htakes := h us (⟨.symbol .parenClose, p⟩ :: rest) hus rfl
  rw [List.cons_append, List.append_assoc, primary]
  simp only [List.singleton_append]
  rw [htakes]
  rfl

/-- One more member or call behind an operand. -/
theorem readsAt_suffix {target : Expr} {ms : List Lexeme} (hms : ms ≠ [])
    (htarget : ReadsAt source d 9 ls target)
    (hstep : ∀ fuel vs rest, Spells vs ms →
      suffixes source (parseAt d source .expression) (fuel + 1) target (vs ++ rest) =
        suffixes source (parseAt d source .expression) fuel e rest) :
    ReadsAt source d 9 (ls ++ ms) e := by
  intro ts rest hts _
  obtain ⟨us, vs, rfl, hus, hvs⟩ := hts.append_inv
  obtain ⟨fuel, hfuel, hread⟩ := htarget us (vs ++ rest) hus (stops_ten _)
  have hpos : 0 < vs.length := by
    rw [← List.length_map (f := Token.lexeme), hvs]
    exact List.length_pos_iff.mpr hms
  rw [List.length_append] at hfuel
  obtain ⟨fuel, rfl⟩ : ∃ f, fuel = f + 1 := ⟨fuel - 1, by omega⟩
  refine ⟨fuel, by omega, ?_⟩
  rw [List.append_assoc, hread]
  exact hstep fuel vs rest hvs

end

/-! ## Lists in brackets -/

theorem startsWith_of_ne {t : Token} (h : t.lexeme ≠ .symbol s) (ts : List Token) :
    startsWith s (t :: ts) = false := by
  unfold startsWith
  split
  · rename_i other _ _ heq
    cases heq
    exact beq_eq_false_iff_ne.mpr fun hother => h (congrArg Lexeme.symbol hother)
  · rfl

/-- Items with commas between them, up to a closing bracket that none of them starts with.  The item
that `x` stands for is spelled by the lexemes that `x` stands for. -/
theorem separated_spells_map {β : Type} {spell : β → List Lexeme} {mean : β → α}
    (hclosing : closing.level? = none) (hcomma : closing ≠ .comma) {items : List β}
    (hitems : ∀ x ∈ items, Takes item 0 (spell x) (mean x) ∧
      ∃ l ls, spell x = l :: ls ∧ l ≠ .symbol closing) {fuel : Nat} (hfuel : ts.length ≤ fuel)
    (hts : Spells ts (commas (items.map spell) ++ [.symbol closing])) :
    separated source item closing fuel (ts ++ rest) = .ok (items.map mean, rest) := by
  induction items generalizing fuel ts with
  | nil =>
    obtain ⟨o, rfl⟩ := hts.singleton_inv
    obtain ⟨fuel, rfl⟩ : ∃ f, fuel = f + 1 := ⟨fuel - 1, by simp at hfuel; omega⟩
    simp [separated, startsWith]
  | cons x xs ih =>
    obtain ⟨⟨htakes, l, ls, hl, hne⟩, hxs⟩ := List.forall_mem_cons.mp hitems
    obtain ⟨us, ws, rfl, hus, hws⟩ : ∃ us ws, ts = us ++ ws ∧ Spells us (spell x) ∧
        Spells ws (match xs with
          | [] => [.symbol closing]
          | y :: ys => .symbol .comma :: (commas ((y :: ys).map spell) ++ [.symbol closing])) := by
      cases xs with
      | nil =>
        rw [List.map_singleton, commas_singleton] at hts
        exact hts.append_inv
      | cons y ys =>
        rw [List.map_cons, List.map_cons, commas_cons_cons, List.append_assoc] at hts
        exact hts.append_inv
    have hstart : startsWith closing (us ++ ws ++ rest) = false := by
      rw [hl] at hus
      obtain ⟨o, us, rfl, _⟩ := hus.cons_inv
      exact startsWith_of_ne hne _
    have hlen : 0 < us.length := by
      rw [← List.length_map (f := Token.lexeme), hus, hl]
      exact Nat.succ_pos _
    rw [List.length_append] at hfuel
    obtain ⟨fuel, rfl⟩ : ∃ f, fuel = f + 1 := ⟨fuel - 1, by omega⟩
    rw [separated, hstart, if_neg Bool.false_ne_true, List.append_assoc]
    cases xs with
    | nil =>
      obtain ⟨o, rfl⟩ := hws.singleton_inv
      rw [htakes us _ hus (by simp [stops, hclosing])]
      simp [bind, Except.bind, startsWith, expect, hcomma]
    | cons y ys =>
      obtain ⟨o, vs, rfl, hvs⟩ := hws.cons_inv
      rw [List.length_cons] at hfuel
      rw [htakes us _ hus rfl]
      have hmore := ih hxs (by omega : vs.length ≤ fuel) hvs
      simp [bind, Except.bind, startsWith, hmore]

theorem separated_spells {spell : α → List Lexeme} (hclosing : closing.level? = none)
    (hcomma : closing ≠ .comma) {items : List α} (hitems : ∀ x ∈ items, Takes item 0 (spell x) x ∧
      ∃ l ls, spell x = l :: ls ∧ l ≠ .symbol closing) {fuel : Nat} (hfuel : ts.length ≤ fuel)
    (hts : Spells ts (commas (items.map spell) ++ [.symbol closing])) :
    separated source item closing fuel (ts ++ rest) = .ok (items, rest) := by
  have hmapped : separated source item closing fuel (ts ++ rest) = .ok (items.map id, rest) :=
    separated_spells_map hclosing hcomma hitems hfuel hts
  rwa [List.map_id] at hmapped

end Expr
end Atoll
