import Atoll.Proofs.Opening

/-!
# Expressions are read back

`Expr.parse` inverts `Expr.print`: the text of every expression that can be printed and is not
nested too deeply is read as the same expression.

* `Readable e` — what the parser makes of the lexemes of `e`: as an expression of their own, and as
  a part of a larger one at every level they were printed for (`Readable.within`).
* `readable_infix`, `readable_member`, `readable_object`, … — one lemma for each kind of
  expression: if its parts are readable, so is it.
* `readable` — hence all printable expressions are, by recursion on the expression.
* `parse_print` — with the lexer in front.
-/

set_option autoImplicit false

namespace Atoll
namespace Expr

variable {source : String} {p : Parser Expr} {items : List (Element Expr)} {e key : Expr}
  {ls : List Lexeme} {d : Nat} {ts : List Token}

/-! ## Readable expressions -/

/-- What the parser makes of the lexemes of an expression, wherever they stand. -/
structure Readable (e : Expr) : Prop where
  /-- They start like an expression. -/
  opening : Opening e
  /-- As an expression of their own they are read as `e`. -/
  expression : ∀ source d, e.nesting ≤ d →
    Takes (parseAt (d + 1) source .expression) 0 e.lexemes e
  /-- So they are at the level of `e` and at every looser one. -/
  level : ∀ source d n, 1 ≤ n → n ≤ e.level → e.nesting ≤ d → ReadsAt source d n e.lexemes e

theorem level_le (e : Expr) : e.level ≤ 9 := by
  unfold level
  split
  · decide
  · decide
  · have := LogicalOp.level_bounds ‹_›
    omega
  · have := BinaryOp.level_bounds ‹_›
    omega
  · decide
  · decide

/-- What is read at the loosest level of operators is an expression, if no question mark follows. -/
theorem takes_expression (harrow : noArrow ls = true)
    (h : ReadsAt source d 1 ls e) : Takes (parseAt (d + 1) source .expression) 0 ls e := by
  intro ts rest hts hstop
  have htest := h.takes (by decide) (by decide) ts rest hts (stops_mono (by decide) hstop)
  have hquestion : startsWith .question rest = false := by
    unfold startsWith
    split
    · refine beq_eq_false_iff_ne.mpr ?_
      rintro rfl
      cases hstop
    · rfl
  show step (parseAt d) source .expression (ts ++ rest) = _
  rw [step, arrowHead?_eq_none (noArrow_spells hts harrow hstop)]
  show (parserAt (parseAt d) source 1 (ts ++ rest) >>= _) = _
  rw [htest]
  show (if startsWith .question rest = true then _ else _) = _
  rw [hquestion]
  rfl

namespace Readable

variable {e : Expr} {source : String} {d n : Nat}

/-- A part of an expression is one level further down. -/
theorem part (h : Readable e) (hd : e.nesting + 1 ≤ d) :
    Takes (parseAt d source .expression) 0 e.lexemes e := by
  obtain ⟨d, rfl⟩ : ∃ k, d = k + 1 := ⟨d - 1, by omega⟩
  exact h.expression source d (by omega)

/-- An expression is read at every place for which it is printed. -/
theorem within (h : Readable e) (hpos : 1 ≤ n) (hle : n ≤ 9) (hd : nestingAt n e e.nesting ≤ d) :
    ReadsAt source d n (within n e) e := by
  unfold Expr.within atLevel
  unfold nestingAt at hd
  split
  · rename_i hlt
    rw [if_pos hlt] at hd
    exact (readsAt_enclosed (h.part hd)).mono hpos hle (by decide)
  · rename_i hge
    rw [if_neg hge] at hd
    exact h.level source d n hpos (by omega) hd

/-- An expression that is read at its own level. -/
theorem of_level (n : Nat) (hopen : Opening e) (hlevel : e.level = n) (hpos : 1 ≤ n)
    (h : ∀ source d, e.nesting ≤ d → ReadsAt source d n e.lexemes e) : Readable e := by
  have hle := level_le e
  have harrow : noArrow e.lexemes = true := by
    rcases hopen.arrow with harrow | ⟨params, body, rfl⟩
    · exact harrow
    · rw [Expr.level] at hlevel
      omega
  refine ⟨hopen, fun source d hd => ?_, fun source d m hm hmn hd => ?_⟩
  · exact takes_expression harrow ((h source d hd).mono (by decide) hpos (by omega))
  · exact (h source d hd).mono hm (by omega) (by omega)

/-- An expression of the loosest level. -/
theorem of_loose (hopen : Opening e) (hlevel : e.level = 0)
    (h : ∀ source d, e.nesting ≤ d → Takes (parseAt (d + 1) source .expression) 0 e.lexemes e) :
    Readable e where
  opening := hopen
  expression := h
  level source d n hn hle _ := by omega

end Readable

/-! ## One kind of expression after the other -/

theorem readable_literal {v : Literal} (h : (Expr.literal v).isPrintable = true) :
    Readable (.literal v) := by
  refine .of_level 9 (opening _ h) rfl (by decide) fun source d _ => ?_
  refine readsAt_primary ?_ fun ts rest hts => ?_
  · cases v with
    | bool b => cases b <;> rfl
    | _ => rfl
  · obtain ⟨o, rfl⟩ := hts.singleton_inv
    cases v with
    | bool b => cases b <;> rfl
    | _ => rfl

theorem readable_name {id : String} (h : (Expr.name id).isPrintable = true) :
    Readable (.name id) := by
  refine .of_level 9 (opening _ h) rfl (by decide) fun source d _ => ?_
  rw [isPrintable, isIdentifier, Bool.and_eq_true, Bool.and_eq_true] at h
  obtain ⟨⟨_, hkeyword⟩, htypeof⟩ := h
  refine readsAt_primary ?_ fun ts rest hts => ?_
  · have hne : id ≠ "typeof" := bne_iff_ne.mp htypeof
    simp [unary?, hne]
  · obtain ⟨o, rfl⟩ := hts.singleton_inv
    have hnone : keyword? id = none := Option.isNone_iff_eq_none.mp hkeyword
    simp [primary, hnone]

/-- An operator between operands, whether it evaluates both of them or not. -/
theorem readable_infix {n : Nat} {s : Symbol} {join : Expr → Expr → Expr} {left right : Expr}
    (hpos : 1 ≤ n) (hle : n ≤ 7) (hop : infixes n s = some join)
    (hopen : Opening (join left right)) (hlevel : (join left right).level = n)
    (hlexemes : (join left right).lexemes = within n left ++ .symbol s :: within (n + 1) right)
    (hnesting : (join left right).nesting =
      max (nestingAt n left left.nesting) (nestingAt (n + 1) right right.nesting))
    (hleft : Readable left) (hright : Readable right) : Readable (join left right) := by
  refine .of_level n hopen hlevel hpos fun source d hd => ?_
  rw [hnesting, Nat.max_le] at hd
  rw [hlexemes]
  exact readsAt_infix hpos hle hop (hleft.within hpos (by omega) hd.1)
    (hright.within (by omega) (by omega) hd.2)

theorem readable_binary {op : BinaryOp} {left right : Expr}
    (h : (Expr.binary op left right).isPrintable = true) (hleft : Readable left)
    (hright : Readable right) : Readable (.binary op left right) :=
  readable_infix op.level_bounds.1 op.level_bounds.2 (infixes_binary op) (opening _ h) rfl
    (lexemes_binary left right op) rfl hleft hright

theorem readable_logical {op : LogicalOp} {left right : Expr}
    (h : (Expr.logical op left right).isPrintable = true) (hleft : Readable left)
    (hright : Readable right) : Readable (.logical op left right) :=
  readable_infix op.level_bounds.1 op.level_bounds.2 (infixes_logical op) (opening _ h) rfl
    (lexemes_logical left right op) rfl hleft hright

theorem readable_unary {op : UnaryOp} {operand : Expr}
    (h : (Expr.unary op operand).isPrintable = true) (hoperand : Readable operand) :
    Readable (.unary op operand) := by
  refine .of_level 8 (opening _ h) rfl (by decide) fun source d hd => ?_
  rw [nesting] at hd
  rw [lexemes_unary]
  intro ts rest hts hstop
  obtain ⟨o, us, rfl, hus⟩ := hts.cons_inv
  obtain ⟨d, rfl⟩ : ∃ k, d = k + 1 := ⟨d - 1, by omega⟩
  have hwithin : ReadsAt source d 8 (within 8 operand) operand :=
    hoperand.within (by decide) (by decide) (by omega)
  obtain ⟨fuel, _, hread⟩ := hwithin us rest hus hstop
  refine ⟨rest.length, Nat.le_refl _, ?_⟩
  have hop : unary? op.lexeme = some op := by cases op <;> rfl
  show Expr.operand (parseAt (d + 1)) source (⟨op.lexeme, o⟩ :: us ++ rest) = _
  rw [Expr.operand]
  simp only [List.cons_append, List.head?_cons, Option.bind_some, hop, List.drop_succ_cons,
    List.drop_zero]
  show (parserAt (parseAt d) source 8 (us ++ rest)).map _ = _
  rw [hread]
  rfl

theorem readable_conditional {test yes no : Expr}
    (h : (Expr.conditional test yes no).isPrintable = true) (htest : Readable test)
    (hyes : Readable yes) (hno : Readable no) : Readable (.conditional test yes no) := by
  refine .of_loose (opening _ h) rfl fun source d hd => ?_
  rw [nesting, Nat.max_le] at hd
  have harrow : noArrow (Expr.conditional test yes no).lexemes = true := by
    rcases (opening _ h).arrow with harrow | ⟨params, body, heq⟩
    · exact harrow
    · cases heq
  intro ts rest hts hstop
  show step (parseAt d) source .expression (ts ++ rest) = _
  rw [step, arrowHead?_eq_none (noArrow_spells hts harrow hstop)]
  rw [lexemes_conditional] at hts
  obtain ⟨us, ts₁, rfl, hus, hts₁⟩ := hts.append_inv
  obtain ⟨o, ts₂, rfl, hts₂⟩ := hts₁.cons_inv
  obtain ⟨vs, ts₃, rfl, hvs, hts₃⟩ := hts₂.append_inv
  obtain ⟨p, ws, rfl, hws⟩ := hts₃.cons_inv
  have htest : Takes (parserAt (parseAt d) source 1) 1 (within 1 test) test :=
    (htest.within (by decide) (by decide) hd.1).takes (by decide) (by decide)
  have hyes : Takes (parseAt d source .expression) 0 yes.lexemes yes := hyes.part (by omega)
  have hno : Takes (parseAt d source .expression) 0 no.lexemes no := hno.part (by omega)
  simp only [List.append_assoc, List.cons_append]
  show (parserAt (parseAt d) source 1 (us ++ _) >>= _) = _
  rw [htest us _ hus rfl]
  show (parseAt d source .expression (vs ++ _) >>= _) = _
  rw [hyes vs _ hvs rfl]
  show (parseAt d source .expression (ws ++ rest) >>= _) = _
  rw [hno ws rest hws hstop]
  rfl

theorem readable_arrow {params : List String} {body : Expr}
    (h : (Expr.arrow params body).isPrintable = true) (hbody : Readable body) :
    Readable (.arrow params body) := by
  refine .of_loose (opening _ h) rfl fun source d hd => ?_
  rw [nesting] at hd
  rw [isPrintable, Bool.and_eq_true] at h
  rw [lexemes]
  intro ts rest hts hstop
  obtain ⟨us, ts₁, rfl, hus, hts₁⟩ := hts.append_inv
  obtain ⟨o, vs, rfl, hvs⟩ := hts₁.cons_inv
  have hbody : Takes (parseAt d source .expression) 0 body.lexemes body := hbody.part hd
  show step (parseAt d) source .expression (us ++ ⟨.symbol .arrow, o⟩ :: vs ++ rest) = _
  rw [step, List.append_assoc, List.cons_append, arrowHead?_spells h.1 hus]
  show (parseAt d source .expression (vs ++ rest)).map _ = _
  rw [hbody vs rest hvs hstop]
  rfl

/-! ## Members and calls -/

theorem propertyName?_eq_some {id : String} (h : key.propertyName? = some id) :
    key = .literal (.string id) := by
  unfold propertyName? at h
  split at h
  · split at h
    · cases h
      rfl
    · cases h
  · cases h

theorem keyInBrackets_spells {expression : Parser Expr} (hkey : Takes expression 0 key.lexemes key)
    (hts : Spells ts key.lexemes) (o : Nat) (rest : List Token) :
    keyInBrackets source expression (ts ++ ⟨.symbol .squareClose, o⟩ :: rest) =
      .ok (key, rest) := by
  rw [keyInBrackets, hkey ts _ hts rfl]
  rfl

theorem readable_member {target : Expr} {optional : Bool}
    (h : (Expr.member target key optional).isPrintable = true) (htarget : Readable target)
    (hkey : Readable key) : Readable (.member target key optional) := by
  refine .of_level 9 (opening _ h) rfl (by decide) fun source d hd => ?_
  rw [nesting, Nat.max_le] at hd
  rw [lexemes_member]
  obtain ⟨s, ms, hms, _⟩ := accessLexemes_eq_cons key optional key.lexemes
  refine readsAt_suffix (by rw [hms]; simp) (htarget.within (by decide) (by decide) hd.1)
    fun fuel vs rest hvs => ?_
  unfold accessLexemes at hvs
  split at hvs
  · rename_i id hid
    rw [propertyName?_eq_some hid]
    obtain ⟨o, ws, rfl, hws⟩ := hvs.cons_inv
    obtain ⟨p, rfl⟩ := hws.singleton_inv
    cases optional <;> rfl
  · rename_i hnone
    rw [hnone, Option.elim_none] at hd
    have hkey : Takes (parseAt d source .expression) 0 key.lexemes key := hkey.part hd.2
    cases optional with
    | true =>
      obtain ⟨o, ws, rfl, hws⟩ := hvs.cons_inv
      obtain ⟨p, us, q, rfl, hus⟩ := Spells.enclosed_inv hws
      simp only [List.cons_append, List.append_assoc, List.nil_append]
      show (keyInBrackets source _ (us ++ _) >>= _) = _
      rw [keyInBrackets_spells hkey hus]
      rfl
    | false =>
      obtain ⟨p, us, q, rfl, hus⟩ := Spells.enclosed_inv hvs
      simp only [List.cons_append, List.append_assoc, List.nil_append]
      show (keyInBrackets source _ (us ++ _) >>= _) = _
      rw [keyInBrackets_spells hkey hus]
      rfl

/-! ## Lists and objects -/

section

variable {source : String} {d : Nat}

/-- The lexemes of a part do not start with a symbol that no expression starts with. -/
theorem Readable.head (h : Readable e) : ∃ l ls, e.lexemes = l :: ls ∧
    ∀ s : Symbol, s.opens = false → l.isNot s = true :=
  h.opening.within_head 0

/-- An element that does not start with dots. -/
theorem single_takes {l : Lexeme} (h : Takes p 0 (l :: ls) e)
    (hl : l ≠ .symbol .dots) : Takes (element p) 0 (l :: ls) (.single e) := by
  intro ts rest hts hstop
  have htakes := h ts rest hts hstop
  obtain ⟨o, us, rfl, _⟩ := hts.cons_inv
  unfold element
  split
  · rename_i heq
    cases heq
    exact absurd rfl hl
  · rw [htakes]
    rfl

theorem element_takes {x : Element Expr} (h : Readable x.value) (hd : x.value.nesting + 1 ≤ d) :
    Takes (element (parseAt d source .expression)) 0 (ofElement x) x := by
  have hpart : Takes (parseAt d source .expression) 0 x.value.lexemes x.value := h.part hd
  cases x with
  | single e =>
    obtain ⟨l, ls, hls, hl⟩ := h.head
    rw [hls] at hpart
    rw [show ofElement (.single e) = l :: ls from hls]
    exact single_takes hpart (Lexeme.ne_of_isNot (hl .dots rfl))
  | spread e =>
    intro ts rest hts hstop
    obtain ⟨o, us, rfl, hus⟩ := hts.cons_inv
    show (parseAt d source .expression (us ++ rest)).map _ = _
    rw [hpart us rest hus hstop]
    rfl

/-- The elements of a list or the arguments of a call, with the closing bracket. -/
theorem elements_spells {closing : Symbol}
    (hclosing : closing = .parenClose ∨ closing = .squareClose) (h : ∀ x ∈ items, Readable x.value)
    (hd : elementNesting items ≤ d)
    (hts : Spells ts (commas (elementLexemes items) ++ [.symbol closing])) (rest : List Token) :
    elements source (parseAt d source .expression) closing (ts ++ rest) = .ok (items, rest) := by
  rw [elementLexemes_eq_map] at hts
  refine separated_spells ?_ ?_ (fun x hx => ⟨?_, ?_⟩) ?_ hts
  · rcases hclosing with rfl | rfl <;> rfl
  · rcases hclosing with rfl | rfl <;> decide
  · exact element_takes (h x hx) (Nat.le_trans (nesting_of_mem_elements hx) hd)
  · cases x with
    | single e =>
      obtain ⟨l, ls, hls, hl⟩ := (h _ hx).head
      refine ⟨l, ls, hls, Lexeme.ne_of_isNot (hl closing ?_)⟩
      rcases hclosing with rfl | rfl <;> rfl
    | spread e =>
      refine ⟨_, _, rfl, ?_⟩
      rcases hclosing with rfl | rfl <;> simp
  · rw [List.length_append]
    omega

theorem readable_array (h : (Expr.array items).isPrintable = true)
    (hitems : ∀ x ∈ items, Readable x.value) : Readable (.array items) := by
  refine .of_level 9 (opening _ h) rfl (by decide) fun source d hd => ?_
  refine readsAt_primary rfl fun ts rest hts => ?_
  obtain ⟨o, us, rfl, hus⟩ := hts.cons_inv
  show (elements source (parseAt d source .expression) .squareClose (us ++ rest)).map _ = _
  rw [elements_spells (.inr rfl) hitems hd hus]
  rfl

theorem readable_call {callee : Expr} {args : List (Element Expr)}
    (h : (Expr.call callee args).isPrintable = true) (hcallee : Readable callee)
    (hargs : ∀ x ∈ args, Readable x.value) : Readable (.call callee args) := by
  refine .of_level 9 (opening _ h) rfl (by decide) fun source d hd => ?_
  rw [nesting, Nat.max_le] at hd
  rw [lexemes_call]
  refine readsAt_suffix (List.cons_ne_nil _ _) (hcallee.within (by decide) (by decide) hd.1)
    fun fuel vs rest hvs => ?_
  obtain ⟨o, us, rfl, hus⟩ := hvs.cons_inv
  show (elements source (parseAt d source .expression) .parenClose (us ++ rest) >>= _) = _
  rw [elements_spells (.inl rfl) hargs hd.2 hus]
  rfl

theorem valueOf_takes {value : Expr} (h : Takes p 0 ls value) :
    Takes (valueOf source p key) 0 (.symbol .colon :: ls) (.pair key value) := by
  intro ts rest hts hstop
  obtain ⟨o, us, rfl, hus⟩ := hts.cons_inv
  show (p (us ++ rest) >>= _) = _
  rw [h us rest hus hstop]
  rfl

theorem keyLexeme?_eq_some {l : Lexeme} (h : keyLexeme? key = some l) :
    ∃ s, key = .literal (.string s) ∧ (l = .name s ∨ l = .string s) := by
  unfold keyLexeme? at h
  split at h
  · rename_i s
    refine ⟨s, rfl, ?_⟩
    cases h
    split
    · exact .inl rfl
    · exact .inr rfl
  · cases h

/-- An entry with its key: a name, a text, or an expression in square brackets. -/
theorem pair_takes {value : Expr} (hkey : Readable key) (hvalue : Readable value)
    (hd : nestingOfEntry (.pair key value) ≤ d) :
    Takes (entry source (parseAt d source .expression)) 0 (ofEntry (.pair key value))
      (.pair key value) := by
  rw [nestingOfEntry, Nat.max_le] at hd
  have hpair : Takes (valueOf source (parseAt d source .expression) key) 0
      (.symbol .colon :: value.lexemes) (.pair key value) := valueOf_takes (hvalue.part hd.2)
  intro ts rest hts hstop
  obtain ⟨us, vs, rfl, hus, hvs⟩ := Spells.append_inv hts
  have hpair := hpair vs rest hvs hstop
  cases hkeyLexeme : keyLexeme? key with
  | some l =>
    rw [ofKey, hkeyLexeme] at hus
    obtain ⟨o, rfl⟩ := Spells.singleton_inv hus
    obtain ⟨s, rfl, rfl | rfl⟩ := keyLexeme?_eq_some hkeyLexeme
    · -- the colon behind it tells a key from a name that is its own value
      obtain ⟨p, ws, rfl, _⟩ := hvs.cons_inv
      exact hpair
    · exact hpair
  | none =>
    rw [ofKey, hkeyLexeme] at hus
    rw [hkeyLexeme] at hd
    have hkey : Takes (parseAt d source .expression) 0 key.lexemes key := hkey.part hd.1
    obtain ⟨o, ws, p, rfl, hws⟩ := Spells.enclosed_inv hus
    simp only [List.cons_append, List.append_assoc, List.nil_append]
    show (parseAt d source .expression (ws ++ _) >>= _) = _
    rw [hkey ws _ hws rfl]
    exact hpair

theorem entry_takes {x : Entry Expr} (h : ∀ e ∈ x.values, Readable e) (hd : nestingOfEntry x ≤ d) :
    Takes (entry source (parseAt d source .expression)) 0 (ofEntry x) x := by
  cases x with
  | pair key value =>
    exact pair_takes (h key (by simp [Entry.values])) (h value (by simp [Entry.values])) hd
  | spread e =>
    have he : Takes (parseAt d source .expression) 0 e.lexemes e :=
      (h e (by simp [Entry.values])).part hd
    intro ts rest hts hstop
    obtain ⟨o, us, rfl, hus⟩ := hts.cons_inv
    show (parseAt d source .expression (us ++ rest)).map _ = _
    rw [he us rest hus hstop]
    rfl

theorem ofEntry_head (x : Entry Expr) :
    ∃ l ls, ofEntry x = l :: ls ∧ l ≠ .symbol .curlyClose := by
  cases x with
  | pair key value =>
    rw [ofEntry, ofKey]
    cases hkeyLexeme : keyLexeme? key with
    | some l =>
      obtain ⟨s, rfl, rfl | rfl⟩ := keyLexeme?_eq_some hkeyLexeme
      · exact ⟨_, _, rfl, by simp⟩
      · exact ⟨_, _, rfl, by simp⟩
    | none => exact ⟨_, _, rfl, by simp⟩
  | spread e => exact ⟨_, _, rfl, by simp⟩

theorem readable_object {es : List (Entry Expr)} (h : (Expr.object es).isPrintable = true)
    (hes : ∀ x ∈ es, ∀ e ∈ x.values, Readable e) : Readable (.object es) := by
  refine .of_level 9 (opening _ h) rfl (by decide) fun source d hd => ?_
  refine readsAt_primary rfl fun ts rest hts => ?_
  obtain ⟨o, us, rfl, hus⟩ := hts.cons_inv
  rw [entryLexemes_eq_map] at hus
  have hentries : entries source (parseAt d source .expression) (us ++ rest) = .ok (es, rest) := by
    refine separated_spells rfl (by decide) (fun x hx => ⟨?_, ofEntry_head x⟩) ?_ hus
    · exact entry_takes (hes x hx) (Nat.le_trans (nesting_of_mem_entries hx) hd)
    · rw [List.length_append]
      omega
  show (entries source (parseAt d source .expression) (us ++ rest)).map _ = _
  rw [hentries]
  rfl

end

/-! ## All expressions -/

mutual

/-- **Every printable expression is read back** from its lexemes. -/
theorem readable (e : Expr) (h : e.isPrintable = true) : Readable e := by
  match e, h with
  | .literal v, h => exact readable_literal h
  | .name id, h => exact readable_name h
  | .array items, h => exact readable_array h (readable_elements items h)
  | .object es, h => exact readable_object h (readable_entries es h)
  | .member target key optional, h =>
    have hparts := h
    rw [isPrintable, Bool.and_eq_true] at hparts
    exact readable_member h (readable target hparts.1) (readable key hparts.2)
  | .call callee args, h =>
    have hparts := h
    rw [isPrintable, Bool.and_eq_true] at hparts
    exact readable_call h (readable callee hparts.1) (readable_elements args hparts.2)
  | .unary op operand, h => exact readable_unary h (readable operand h)
  | .binary op left right, h =>
    have hparts := h
    rw [isPrintable, Bool.and_eq_true] at hparts
    exact readable_binary h (readable left hparts.1) (readable right hparts.2)
  | .logical op left right, h =>
    have hparts := h
    rw [isPrintable, Bool.and_eq_true] at hparts
    exact readable_logical h (readable left hparts.1) (readable right hparts.2)
  | .conditional test yes no, h =>
    have hparts := h
    rw [isPrintable, Bool.and_eq_true, Bool.and_eq_true] at hparts
    exact readable_conditional h (readable test hparts.1.1) (readable yes hparts.1.2)
      (readable no hparts.2)
  | .arrow params body, h =>
    have hparts := h
    rw [isPrintable, Bool.and_eq_true] at hparts
    exact readable_arrow h (readable body hparts.2)

theorem readable_elements (items : List (Element Expr)) (h : arePrintable items = true) :
    ∀ x ∈ items, Readable x.value := by
  match items, h with
  | [], _ => simp
  | .single e :: rest, h =>
    rw [arePrintable, Bool.and_eq_true] at h
    exact List.forall_mem_cons.mpr ⟨readable e h.1, readable_elements rest h.2⟩
  | .spread e :: rest, h =>
    rw [arePrintable, Bool.and_eq_true] at h
    exact List.forall_mem_cons.mpr ⟨readable e h.1, readable_elements rest h.2⟩

theorem readable_entries (es : List (Entry Expr)) (h : areEntriesPrintable es = true) :
    ∀ x ∈ es, ∀ e ∈ x.values, Readable e := by
  match es, h with
  | [], _ => simp
  | .pair key value :: rest, h =>
    rw [areEntriesPrintable, Bool.and_eq_true, Bool.and_eq_true] at h
    refine List.forall_mem_cons.mpr ⟨?_, readable_entries rest h.2⟩
    simp [Entry.values, readable key h.1.1, readable value h.1.2]
  | .spread e :: rest, h =>
    rw [areEntriesPrintable, Bool.and_eq_true] at h
    refine List.forall_mem_cons.mpr ⟨?_, readable_entries rest h.2⟩
    simp [Entry.values, readable e h.1]

end

/-- A text whose lexemes spell an expression is read as that expression. -/
theorem whole_spells {text : String} (hlex : lex text = .ok ts) (hts : Spells ts ls) (hne : ls ≠ [])
    (h : Takes (parseAt d text .expression) 0 ls e) : whole (parseAt d) text = .ok e := by
  have hparse : parseAt d text .expression ts = .ok (e, []) := by
    rw [← List.append_nil ts]
    exact h ts [] hts rfl
  obtain ⟨l, more, rfl⟩ := List.exists_cons_of_ne_nil hne
  obtain ⟨o, us, rfl, _⟩ := hts.cons_inv
  exact whole_eq_ok hlex hparse

/-- A text is read back by any parser that goes deep enough. -/
theorem whole_print (h : e.isPrintable = true) (hd : e.nesting < d) :
    whole (parseAt d) e.print = .ok e := by
  have hreadable := readable e h
  have hlexemes : ∀ l ∈ e.lexemes, l.isPrintable = true := List.all_eq_true.mp (all_lexemes e h)
  obtain ⟨ts, hlex, hts⟩ := lexFrom_spaced e.print e.lexemes hlexemes 0
  obtain ⟨l, ls, hls, _⟩ := hreadable.head
  refine whole_spells ?_ hts (by simp [hls]) (hreadable.part hd)
  rw [lex, show e.print.toList = spaced e.lexemes from String.toList_ofList, hlex]

/-- **Parsing inverts printing**: whatever an expression is made of, if it can be printed at all and
is not nested too deeply, its text is read as the same expression. -/
theorem parse_print {e : Expr} (h : e.isPrintable = true) (hnesting : e.nesting < maxDepth) :
    parse e.print = .ok e :=
  whole_print h hnesting

/-- Operators of all levels, with brackets where they are needed, and lists, objects, members, calls
and arrow functions inside one another. -/
def sample : Expr :=
  .conditional
    (.logical .and
      (.binary .sub (.name "a") (.binary .sub (.name "b") (.literal (.number (.int 255)))))
      (.unary .not (.arrow ["x"] (.name "x"))))
    (.call (.member (.arrow [] (.name "z")) (.literal (.string "then")) true)
      [.spread (.array []),
        .single (.object [.pair (.literal (.string "k")) (.literal .null),
          .pair (.literal (.string "a \"b\"")) (.name "c"), .pair (.name "d") (.name "e"),
          .spread (.name "f")])])
    (.member (.unary .typeof (.name "q")) (.binary .add (.name "i") (.literal (.bool true))) false)

/-- How it is printed. -/
def sampleText : String :=
  "a - ( b - 0xff ) && ! ( x => x ) ? ( ( ) => z ) ?. then ( ... [ ] , \x7b k : null , " ++
    "\"a \\\"b\\\"\" : c , [ d ] : e , ... f \x7d ) : ( typeof q ) [ i + true ]"

set_option maxRecDepth 4096 in
theorem parse_print_sample : sample.isPrintable = true ∧ sample.nesting < maxDepth ∧
    sample.print = sampleText ∧ parse sampleText = .ok sample := by
  have hprintable : sample.isPrintable = true := by rfl
  have hnesting : sample.nesting < maxDepth := by decide
  have hprint : sample.print = sampleText := by rfl
  refine ⟨hprintable, hnesting, hprint, ?_⟩
  rw [← hprint]
  exact parse_print hprintable hnesting

end Expr
end Atoll
