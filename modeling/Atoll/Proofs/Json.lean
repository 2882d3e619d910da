import Atoll.Proofs.Digits
import Atoll.Proofs.Entries
import Atoll.Stored.Reader

/-!
# JSON is read back

What `Json.write` writes, `Json.read` reads.  This holds for data without doubles and moments, whose
objects have no key twice and whose integers and nesting stay within the limits of the reader.  When
keys are sorted, the entries come back in that order.

* `readString_written` — a string is read back, whatever its characters are written as.
* `readNumber_digits` — so is an integer, if nothing follows that would make more of it.
* `ReadsAs` — a text is read as some data, whatever comes behind it; `readItems_joined` and
  `readEntries_joined` put such texts together.
* `readsAs_writeAt` — **a value is read back**, by induction on it.
* `readsBack_of_storable` — hence a whole text is, also with sorted keys.
-/

set_option autoImplicit false

namespace Atoll

theorem Stored.depthOf_pos (d : Datum) : 0 < depthOf d := by
  cases d <;> simp [depthOf]

namespace Json

open Text

variable {t lead rest : List Char} {e : String × Datum} {c : Char} {es : List (String × Datum)}
  {d : Datum} {ts : List (List Char)} {n fuel : Nat} {ds : List Datum} {style : Style}
  (asciiOnly : Bool)

/-! ## Strings -/

theorem scalar_toNat (c : Char) : scalar c.toNat = c := by
  have hvalid : c.toNat.isValidChar := c.valid
  rw [scalar, if_pos hvalid, Char.ofNat_toNat]

/-- Characters are neither surrogates nor beyond the last plane. -/
theorem toNat_bounds (c : Char) : c.toNat < 0xd800 ∨ 0xdfff < c.toNat ∧ c.toNat < 0x110000 :=
  c.valid

/-- The ways in which a character is written. -/
theorem writeChar_cases (c : Char) :
    (∃ e, writeChar asciiOnly c = ['\\', e] ∧ simpleEscape? e = some c ∧ e ≠ 'u') ∨
    (writeChar asciiOnly c = [c] ∧ c ≠ '"' ∧ c ≠ '\\' ∧ 0x20 ≤ c.toNat) ∨
    (writeChar asciiOnly c = unicodeEscape c.toNat ∧ c.toNat < 0x10000) ∨
    asciiOnly = true ∧ ∃ n, c.toNat = 0x10000 + n ∧ n < 0x100000 ∧ writeChar asciiOnly c =
      unicodeEscape (0xd800 + n / 0x400) ++ unicodeEscape (0xdc00 + n % 0x400) := by
  generalize htext : writeChar asciiOnly c = text
  rw [writeChar] at htext
  split at htext
  · rename_i h
    exact .inl ⟨'"', htext.symm, by rw [eq_of_beq h]; rfl, by decide⟩
  rename_i hquote
  split at htext
  · rename_i h
    exact .inl ⟨'\\', htext.symm, by rw [eq_of_beq h]; rfl, by decide⟩
  rename_i hslash
  split at htext
  · rename_i h
    exact .inl ⟨'n', htext.symm, by rw [eq_of_beq h]; rfl, by decide⟩
  split at htext
  · rename_i h
    exact .inl ⟨'r', htext.symm, by rw [eq_of_beq h]; rfl, by decide⟩
  split at htext
  · rename_i h
    exact .inl ⟨'t', htext.symm, by rw [eq_of_beq h]; rfl, by decide⟩
  split at htext
  · rename_i h
    exact .inl ⟨'b', htext.symm, by rw [eq_of_beq h]; rfl, by decide⟩
  split at htext
  · rename_i h
    exact .inl ⟨'f', htext.symm, by rw [eq_of_beq h]; rfl, by decide⟩
  split at htext
  · exact .inr (.inr (.inl ⟨htext.symm, by omega⟩))
  split at htext
  · refine .inr (.inl ⟨htext.symm, ?_, ?_, by omega⟩)
    · exact fun h => hquote (beq_iff_eq.2 h)
    · exact fun h => hslash (beq_iff_eq.2 h)
  rename_i hplain
  split at htext
  · rename_i hplane
    exact .inr (.inr (.inl ⟨htext.symm, hplane⟩))
  · have hvalid := toNat_bounds c
    rw [Bool.or_eq_true, not_or, Bool.not_eq_true', Bool.not_eq_false] at hplain
    exact .inr (.inr (.inr
      ⟨hplain.2, c.toNat - 0x10000, by omega, by omega, htext.symm⟩))

/-- The four digits of an escape, with something behind them. -/
theorem fourHex?_hexPadded (h : n < 0x10000) (hrest : rest ≠ []) :
    fourHex? (hexPadded 4 n ++ rest) = some (n, rest) := by
  have hlength := length_hexPadded (n := n) (by decide : 0 < 4) h
  obtain ⟨ds, hds, hvalue⟩ := mapM_hexPadded 4 n
  obtain ⟨e, cs, rfl⟩ := List.exists_cons_of_ne_nil hrest
  match hexPadded 4 n, hlength, hds with
  | [a, b, c, d], _, hds =>
    show ([a, b, c, d].mapM hexValue?).map (fun ds => (ofDigits 16 ds, e :: cs)) = _
    rw [hds, Option.map_some, hvalue]

/-- An escape of a character of the basic plane. -/
theorem unicodeChar?_single (h : c.toNat < 0x10000)
    (hrest : rest ≠ []) : unicodeChar? (hexPadded 4 c.toNat ++ rest) = some (c, rest) := by
  have hvalid := toNat_bounds c
  have hjoin : ∀ m, joinSurrogates? c.toNat m = none := by
    intro m
    rw [joinSurrogates?, if_neg]
    simp only [Bool.and_eq_true, decide_eq_true_eq]
    omega
  rw [unicodeChar?, fourHex?_hexPadded h hrest]
  simp only [hjoin, scalar_toNat]
  split
  · split
    · rfl
    · rfl
  · rfl

/-- The two escapes of a character beyond it. -/
theorem unicodeChar?_pair (hc : c.toNat = 0x10000 + n) (h : n < 0x100000) (hrest : rest ≠ []) :
    unicodeChar? (hexPadded 4 (0xd800 + n / 0x400) ++
      unicodeEscape (0xdc00 + n % 0x400) ++ rest) = some (c, rest) := by
  have hjoin : joinSurrogates? (0xd800 + n / 0x400) (0xdc00 + n % 0x400) = some c.toNat := by
    rw [joinSurrogates?, if_pos, hc]
    · exact congrArg some (by omega)
    · simp only [Bool.and_eq_true, decide_eq_true_eq]
      omega
  have hlow := fourHex?_hexPadded (n := 0xdc00 + n % 0x400) (by omega) hrest
  rw [unicodeChar?, List.append_assoc, fourHex?_hexPadded (by omega) (by simp [unicodeEscape])]
  simp only [unicodeEscape, List.cons_append, hlow, hjoin, scalar_toNat]

/-- One character of a string is read back. -/
theorem readChars_writeChar (c : Char) (fuel : Nat) (done : List Char) (hrest : rest ≠ []) :
    readChars (fuel + 1) done (writeChar asciiOnly c ++ rest) =
      readChars fuel (c :: done) rest := by
  rcases writeChar_cases asciiOnly c with ⟨e, hwrite, hescape, hu⟩ |
    ⟨hwrite, hquote, hslash, hplain⟩ | ⟨hwrite, hplane⟩ | ⟨-, n, hc, hn, hwrite⟩
  · rw [hwrite]
    simp [readChars, *]
  · rw [hwrite]
    have hcontrol : ¬c.toNat < 0x20 := by omega
    simp [readChars, *]
  · rw [hwrite, unicodeEscape]
    simp [readChars, unicodeChar?_single hplane hrest]
  · rw [hwrite, unicodeEscape]
    have hpair := unicodeChar?_pair hc hn hrest
    rw [List.append_assoc] at hpair
    simp [readChars, hpair]

theorem writeChar_ne_nil (c : Char) : writeChar asciiOnly c ≠ [] := by
  rcases writeChar_cases asciiOnly c with ⟨e, hwrite, -⟩ | ⟨hwrite, -⟩ | ⟨hwrite, -⟩ |
    ⟨-, n, -, -, hwrite⟩
  · simp [hwrite]
  · simp [hwrite]
  · simp [hwrite, unicodeEscape]
  · simp [hwrite, unicodeEscape]

/-- The characters of a string are read back. -/
theorem readChars_written (s rest : List Char) (hfuel : s.length < fuel) (done : List Char) :
    readChars fuel done (s.flatMap (writeChar asciiOnly) ++ '"' :: rest) =
      .ok (done.reverse ++ s, rest) := by
  induction s generalizing fuel done with
  | nil =>
    obtain ⟨fuel, rfl⟩ : ∃ k, fuel = k + 1 := ⟨fuel - 1, by omega⟩
    simp [readChars]
  | cons c s ih =>
    rw [List.length_cons] at hfuel
    obtain ⟨fuel, rfl⟩ : ∃ k, fuel = k + 1 := ⟨fuel - 1, by omega⟩
    rw [List.flatMap_cons, List.append_assoc, readChars_writeChar _ _ _ _ (by simp),
      ih (by omega)]
    simp

theorem length_le_flatMap_writeChar (s : List Char) :
    s.length ≤ (s.flatMap (writeChar asciiOnly)).length := by
  induction s with
  | nil => exact Nat.le_refl _
  | cons c s ih =>
    have hpos := List.length_pos_iff.2 (writeChar_ne_nil asciiOnly c)
    rw [List.flatMap_cons, List.length_append, List.length_cons]
    omega

/-- **A string is read back**, from behind its opening quote. -/
theorem readString_written (s : String) (rest : List Char) :
    readString (s.toList.flatMap (writeChar asciiOnly) ++ '"' :: rest) = .ok (s, rest) := by
  have hlength := length_le_flatMap_writeChar asciiOnly s.toList
  rw [readString,
    readChars_written asciiOnly s.toList rest (by simp only [List.length_append]; omega)]
  simp [Except.map]

/-! ## Numbers -/

/-- What may follow a number without making more of it. -/
def EndsNumber (rest : List Char) : Prop :=
  ∀ c ∈ rest.head?, c.isDigit = false ∧ c ≠ '.' ∧ c ≠ 'e' ∧ c ≠ 'E'

/-- **The digits of a number are read back.** -/
theorem readNumber_digits (negative : Bool) (hn : (Nat.toDigits 10 n).length ≤ maxDigits)
    (hrest : EndsNumber rest) :
    readNumber negative (Nat.toDigits 10 n ++ rest) =
      .ok (.int (if negative then -n else n), rest) := by
  have hdigits : ∀ c ∈ Nat.toDigits 10 n, c.isDigit = true := fun c hc =>
    Nat.isDigit_of_mem_toDigits (by decide) (by decide) hc
  have hfraction : takeFraction rest = ([], rest) := by
    unfold takeFraction
    split
    · exact absurd rfl (hrest '.' rfl).2.1
    · rfl
  have hexponent : takeExponentText rest = ([], rest) := by
    unfold takeExponentText
    split
    · rename_i e cs
      obtain ⟨-, -, he, hE⟩ := hrest e rfl
      simp [he, hE]
    · rfl
  have hvalue := ofDigits_decimal n
  have hwhile : (Nat.toDigits 10 n ++ rest).takeWhile Char.isDigit = Nat.toDigits 10 n :=
    takeWhile_append_stop hdigits fun c hc => (hrest c hc).1
  rcases Nat.eq_zero_or_pos n with rfl | hpos
  · simp [readNumber, hfraction, hexponent, maxDigits, Decimal.digitValues, ofDigits]
  · have hhead := head?_toDigits hpos
    have hne : Nat.toDigits 10 n ≠ [] := Nat.toDigits_ne_nil
    generalize Nat.toDigits 10 n = digits at *
    cases digits with
    | nil => exact absurd rfl hne
    | cons c cs =>
      have hc : c ≠ '0' := by simpa using hhead
      have hlong : ¬cs.length + 1 > maxDigits := by simpa using hn
      rw [List.cons_append] at hwhile
      simp [readNumber, hc, hwhile, hfraction, hexponent, hlong, hvalue]

/-! ## Blanks -/

/-- A text of nothing but blanks. -/
def Blank (s : List Char) : Prop :=
  ∀ c ∈ s, isSpace c = true

theorem skipSpace_append {gap s : List Char} (hgap : Blank gap)
    (hs : ∀ c ∈ s.head?, isSpace c = false) : skipSpace (gap ++ s) = s := by
  rw [skipSpace, List.dropWhile_append_of_pos hgap]
  cases s with
  | nil => rfl
  | cons c cs => rw [List.dropWhile_cons_of_neg (by simp [hs c rfl])]

/-- A mark ends a number. -/
theorem endsNumber_cons (hc : c.isDigit = false ∧ c ≠ '.' ∧ c ≠ 'e' ∧ c ≠ 'E')
    (rest : List Char) : EndsNumber (c :: rest) := by
  intro d hd
  cases hd
  exact hc

/-- So does one behind blanks. -/
theorem endsNumber_append {tail : List Char} (htail : Blank tail)
    (hc : c.isDigit = false ∧ c ≠ '.' ∧ c ≠ 'e' ∧ c ≠ 'E') (rest : List Char) :
    EndsNumber (tail ++ c :: rest) := by
  cases tail with
  | nil => exact endsNumber_cons hc rest
  | cons e tail =>
    have he := htail e (List.mem_cons_self ..)
    simp only [isSpace, Bool.or_eq_true, beq_iff_eq] at he
    refine endsNumber_cons ?_ _
    rcases he with ((rfl | rfl) | rfl) | rfl <;> decide

/-! ## Items and entries -/

/-- The text is read as the data, whatever comes behind it. -/
structure ReadsAs (value : Reader Datum) (d : Datum) (text : List Char) : Prop where
  starts : ∃ c cs, text = c :: cs ∧ isSpace c = false ∧ c ≠ ']' ∧ c ≠ '\ufeff'
  reads : ∀ rest, EndsNumber rest → value (text ++ rest) = .ok (d, rest)

theorem ReadsAs.skipSpace {value : Reader Datum} {d : Datum} {text : List Char}
    (h : ReadsAs value d text) {gap : List Char} (hgap : Blank gap) (rest : List Char) :
    skipSpace (gap ++ (text ++ rest)) = text ++ rest := by
  obtain ⟨c, cs, rfl, hc, -⟩ := h.starts
  exact skipSpace_append hgap (by simpa using hc)

/-- Joined texts are at least as long as there are marks between them. -/
theorem length_le_intercalate (c : Char) (gap : List Char) (ts : List (List Char)) :
    ts.length ≤ ((c :: gap).intercalate ts).length + 1 := by
  induction ts with
  | nil => exact Nat.zero_le _
  | cons t ts ih =>
    cases ts with
    | nil => simp
    | cons u us =>
      rw [List.intercalate_cons_cons]
      simp only [List.length_cons, List.length_append] at ih ⊢
      omega

/-- The first of some joined texts is what stands there first. -/
theorem skipSpace_intercalate (hlead : Blank lead) (hc : isSpace c = false) (sep cs : List Char)
    (ts : List (List Char)) (rest : List Char) :
    ∃ more, skipSpace (lead ++ (sep.intercalate ((c :: cs) :: ts) ++ rest)) = c :: more := by
  cases ts with
  | nil =>
    rw [List.intercalate_singleton, skipSpace_append hlead (by simp [hc])]
    exact ⟨_, rfl⟩
  | cons u us =>
    rw [List.intercalate_cons_cons, skipSpace_append hlead (by simp [hc])]
    exact ⟨_, rfl⟩

section

variable {value : Reader Datum} {gap tail : List Char}

/-- One item is read back. -/
theorem readItems_step (hd : ReadsAs value d t) (hlead : Blank lead) (hrest : EndsNumber rest)
    (fuel : Nat) (done : List Datum) :
    readItems value (fuel + 1) done (lead ++ (t ++ rest)) =
      match skipSpace rest with
      | ',' :: cs => readItems value fuel (d :: done) cs
      | ']' :: cs => .ok ((d :: done).reverse, cs)
      | _ => .error (.malformed .noComma) := by
  rw [readItems, hd.skipSpace hlead, hd.reads rest hrest]
  rfl

/-- **The items of an array are read back.** -/
theorem readItems_joined (hgap : Blank gap) (htail : Blank tail)
    (h : List.Forall₂ (ReadsAs value) ds ts) (hne : ts ≠ []) (hlead : Blank lead)
    (hfuel : ts.length ≤ fuel) (done : List Datum) (rest : List Char) :
    readItems value fuel done
        (lead ++ ((',' :: gap).intercalate ts ++ (tail ++ ']' :: rest))) =
      .ok (done.reverse ++ ds, rest) := by
  induction h generalizing lead fuel done with
  | nil => exact absurd rfl hne
  | @cons d t ds ts hd hds ih =>
    rw [List.length_cons] at hfuel
    obtain ⟨fuel, rfl⟩ : ∃ k, fuel = k + 1 := ⟨fuel - 1, by omega⟩
    cases ts with
    | nil =>
      cases hds
      have hend : skipSpace (tail ++ ']' :: rest) = ']' :: rest :=
        skipSpace_append htail (by simp [isSpace])
      rw [List.intercalate_singleton,
        readItems_step hd hlead (endsNumber_append htail (by decide) rest)]
      simp only [hend, List.reverse_cons]
    | cons u us =>
      have hnext := ih (List.cons_ne_nil u us) hgap (Nat.le_of_succ_le_succ hfuel) (d :: done)
      rw [List.intercalate_cons_cons, List.append_assoc, List.append_assoc, List.cons_append,
        readItems_step hd hlead (endsNumber_cons (by decide) _)]
      simpa [skipSpace, isSpace] using hnext

/-- An array of items is read back. -/
theorem readStep_array (hgap : Blank gap) (htail : Blank tail) (hlead : Blank lead)
    (h : List.Forall₂ (ReadsAs value) ds ts) (hne : ts ≠ []) (rest : List Char) :
    readStep value ('[' :: (lead ++ ((',' :: gap).intercalate ts ++ (tail ++ ']' :: rest)))) =
      .ok (.array ds, rest) := by
  have hfuel : ts.length ≤ (lead ++ ((',' :: gap).intercalate ts ++
      (tail ++ ']' :: rest))).length + 1 := by
    have hlength := length_le_intercalate ',' gap ts
    simp only [List.length_append]
    omega
  have hitems := readItems_joined hgap htail h hne hlead hfuel [] rest
  cases h with
  | nil => exact absurd rfl hne
  | @cons d t ds ts hd hds =>
    obtain ⟨c, cs, rfl, hspace, hc, -⟩ := hd.starts
    obtain ⟨more, hskip⟩ :=
      skipSpace_intercalate hlead hspace (',' :: gap) cs ts (tail ++ ']' :: rest)
    simp only [readStep, hskip]
    split
    · rename_i heq
      exact absurd (List.cons.inj heq).1 hc
    · rw [hitems]
      rfl

/-! The entries of an object are items with a key. -/

/-- The text is read as a key, and a value behind a colon. -/
def EntryReadsAs (value : Reader Datum) (e : String × Datum) (text : List Char) : Prop :=
  ∃ asciiOnly gap v, Blank gap ∧ ReadsAs value e.2 v ∧
    text = '"' :: (e.1.toList.flatMap (writeChar asciiOnly) ++ '"' :: ':' :: (gap ++ v))

theorem EntryReadsAs.starts (h : EntryReadsAs value e t) : ∃ cs, t = '"' :: cs := by
  obtain ⟨asciiOnly, gap, v, -, -, rfl⟩ := h
  exact ⟨_, rfl⟩

/-- One entry is read back. -/
theorem readEntries_step (he : EntryReadsAs value e t) (hlead : Blank lead)
    (hrest : EndsNumber rest) (fuel : Nat) (done : List (String × Datum)) :
    readEntries value (fuel + 1) done (lead ++ (t ++ rest)) =
      match skipSpace rest with
      | ',' :: cs => readEntries value fuel (setEntry e.1 e.2 done) cs
      | '}' :: cs => .ok (setEntry e.1 e.2 done, cs)
      | _ => .error (.malformed .noComma) := by
  obtain ⟨asciiOnly, gap, v, hgap, hv, rfl⟩ := he
  have hstart : skipSpace (lead ++ ('"' :: (e.1.toList.flatMap (writeChar asciiOnly) ++
      '"' :: ':' :: (gap ++ v)) ++ rest)) = '"' :: (e.1.toList.flatMap (writeChar asciiOnly) ++
      '"' :: (':' :: (gap ++ (v ++ rest)))) := by
    rw [skipSpace_append hlead (by simp [isSpace])]
    simp
  rw [readEntries, hstart]
  simp only [readString_written]
  show (value (skipSpace (gap ++ (v ++ rest))) >>= _) = _
  rw [hv.skipSpace hgap, hv.reads rest hrest]
  rfl

/-- **The entries of an object are read back.** -/
theorem readEntries_joined (hgap : Blank gap) (htail : Blank tail)
    (h : List.Forall₂ (EntryReadsAs value) es ts) (hne : ts ≠ []) (hlead : Blank lead)
    (hfuel : ts.length ≤ fuel) {done : List (String × Datum)}
    (hkeys : ((done ++ es).map Prod.fst).Nodup) (rest : List Char) :
    readEntries value fuel done
        (lead ++ ((',' :: gap).intercalate ts ++ (tail ++ '}' :: rest))) =
      .ok (done ++ es, rest) := by
  induction h generalizing lead fuel done with
  | nil => exact absurd rfl hne
  | @cons e t es ts he hes ih =>
    rw [List.length_cons] at hfuel
    obtain ⟨fuel, rfl⟩ : ∃ k, fuel = k + 1 := ⟨fuel - 1, by omega⟩
    have hset : setEntry e.1 e.2 done = done ++ [e] :=
      setEntry_of_not_mem (key_not_mem_of_nodup hkeys) e.2
    rw [← List.singleton_append, ← List.append_assoc] at hkeys
    cases ts with
    | nil =>
      cases hes
      have hend : skipSpace (tail ++ '}' :: rest) = '}' :: rest :=
        skipSpace_append htail (by simp [isSpace])
      rw [List.intercalate_singleton,
        readEntries_step he hlead (endsNumber_append htail (by decide) rest)]
      simp only [hend, hset]
    | cons u us =>
      have hnext := ih (List.cons_ne_nil u us) hgap (Nat.le_of_succ_le_succ hfuel) hkeys
      rw [List.intercalate_cons_cons, List.append_assoc, List.append_assoc, List.cons_append,
        readEntries_step he hlead (endsNumber_cons (by decide) _), hset]
      simpa [skipSpace, isSpace] using hnext

/-- An object of entries is read back. -/
theorem readStep_object (hgap : Blank gap) (htail : Blank tail) (hlead : Blank lead)
    (h : List.Forall₂ (EntryReadsAs value) es ts) (hne : ts ≠ []) (hkeys : (es.map Prod.fst).Nodup)
    (rest : List Char) :
    readStep value ('{' :: (lead ++ ((',' :: gap).intercalate ts ++ (tail ++ '}' :: rest)))) =
      .ok (.object es, rest) := by
  have hfuel : ts.length ≤ (lead ++ ((',' :: gap).intercalate ts ++
      (tail ++ '}' :: rest))).length + 1 := by
    have hlength := length_le_intercalate ',' gap ts
    simp only [List.length_append]
    omega
  have hentries := readEntries_joined hgap htail h hne hlead hfuel
    (hkeys : (([] ++ es).map Prod.fst).Nodup) rest
  cases h with
  | nil => exact absurd rfl hne
  | @cons e t es ts he hes =>
    obtain ⟨cs, rfl⟩ := he.starts
    obtain ⟨more, hskip⟩ := skipSpace_intercalate hlead (by decide : isSpace '"' = false)
      (',' :: gap) cs ts (tail ++ '}' :: rest)
    simp only [readStep, hskip, hentries]
    rfl

end

/-! ## Values -/

/-- A style whose marks are a comma and a colon with blanks, and whose indent is blank. -/
structure Style.IsStandard (style : Style) : Prop where
  itemMark : ∃ gap, Blank gap ∧ style.itemMark.toList = ',' :: gap
  keyMark : ∃ gap, Blank gap ∧ style.keyMark.toList = ':' :: gap
  indent : ∀ unit ∈ style.indent, Blank unit.toList

mutual

/-- Data that a text holds without loss: no doubles and no moments, integers within the limit, and
no key twice in an object. -/
def isStorable : Datum → Bool
  | .int n => (Nat.toDigits 10 n.natAbs).length ≤ maxDigits
  | .float _ => false
  | .moment _ => false
  | .array items => allStorable items
  | .object entries => decide (entries.map Prod.fst).Nodup && entriesStorable entries
  | _ => true

/-- A list of such data. -/
def allStorable : List Datum → Bool
  | [] => true
  | d :: ds => isStorable d && allStorable ds

/-- Entries with such data. -/
def entriesStorable : List (String × Datum) → Bool
  | [] => true
  | (_, d) :: ds => isStorable d && entriesStorable ds

end

theorem blank_times {unit : String} (h : Blank unit.toList) (n : Int) :
    Blank (times n unit).toList := by
  intro c hc
  rw [times, String.toList_join, List.mem_flatMap] at hc
  obtain ⟨s, hs, hcs⟩ := hc
  rw [List.eq_of_mem_replicate hs] at hcs
  exact h c hcs

/-- The unit of an indent, unless its width is no count. -/
theorem indentUnit_eq (n : Int) :
    indentUnit n =
      if n < -2 ^ 63 ∨ 2 ^ 63 ≤ n then .error .largeCount else .ok (times n " ") := by
  have hcount : countLimit = 2 ^ 63 := rfl
  have hlength : n * (" ".length : Nat) = n := Int.mul_one n
  rw [indentUnit, repeated, hlength, hcount]
  by_cases hfits : n < -2 ^ 63 ∨ 2 ^ 63 ≤ n
  · rw [if_pos (by simpa using hfits), if_pos hfits]
  rw [if_neg (by simpa using hfits), if_neg hfits]
  by_cases hnone : n ≤ 0
  · rw [if_pos (by simp [hnone]), times, Int.toNat_of_nonpos hnone]
    rfl
  · rw [if_neg (by simpa using hnone), if_neg (by omega)]

theorem blank_indentUnit {width : Int} {unit : String} (h : indentUnit width = .ok unit) :
    Blank unit.toList := by
  rw [indentUnit_eq] at h
  split at h
  · cases h
  · cases h
    exact blank_times (by simp [Blank, isSpace]) width

/-- Items between brackets are joined by commas, with blanks around them. -/
theorem toList_writeItems (h : style.IsStandard) (level : Nat) (opening closing : String)
    {items : List String} (hne : items ≠ []) :
    ∃ lead gap tail, Blank lead ∧ Blank gap ∧ Blank tail ∧
      (writeItems style level opening closing items).toList =
        opening.toList ++ (lead ++ ((',' :: gap).intercalate (items.map String.toList) ++
          (tail ++ closing.toList))) := by
  obtain ⟨gap, hgap, hmark⟩ := h.itemMark
  have hempty : items.isEmpty = false := by simpa using hne
  rw [writeItems, hempty]
  cases hindent : style.indent with
  | none =>
    refine ⟨[], gap, [], by simp [Blank], hgap, by simp [Blank], ?_⟩
    simp [String.toList_intercalate, hmark]
  | some unit =>
    have hline : ∀ n : Nat, Blank ("\n" ++ times n unit).toList := by
      intro n c hc
      rw [String.toList_append, List.mem_append] at hc
      rcases hc with hc | hc
      · rw [List.mem_singleton.1 hc]
        rfl
      · exact blank_times (h.indent unit hindent) n c hc
    refine ⟨_, gap ++ ("\n" ++ times (level + 1 : Nat) unit).toList, _, hline (level + 1), ?_,
      hline level, ?_⟩
    · exact List.forall_mem_append.2 ⟨hgap, hline (level + 1)⟩
    · simp [String.toList_intercalate, hmark]

/-- A value whose first character tells what it is. -/
theorem ReadsAs.of_start {depth : Nat} (c : Char) (cs : List Char)
    (hc : isSpace c = false ∧ c ≠ ']' ∧ c ≠ '\ufeff') (h : ∀ rest, EndsNumber rest →
      readStep (readValue depth) (c :: (cs ++ rest)) = .ok (d, rest)) :
    ReadsAs (readValue (depth + 1)) d (c :: cs) :=
  ⟨⟨c, cs, rfl, hc⟩, h⟩

/-- A string is read back. -/
theorem readsAs_string (depth : Nat) (s : String) :
    ReadsAs (readValue (depth + 1)) (.string s) (writeString asciiOnly s).toList := by
  rw [writeString, String.toList_ofList]
  refine .of_start '"' (s.toList.flatMap (writeChar asciiOnly) ++ ['"']) (by decide)
    fun rest _ => ?_
  rw [List.append_assoc, List.singleton_append, readStep, readString_written]
  rfl

theorem ne_of_isDigit {e : Char} (hc : c.isDigit = true) (he : e.isDigit = false) : e ≠ c := by
  rintro rfl
  rw [he] at hc
  cases hc

/-- No word starts like a number. -/
theorem readWord_of_digit (hc : c.isDigit = true) (cs : List Char) :
    readWord (c :: cs) = none ∧ readWord ('-' :: c :: cs) = none := by
  have hne : ∀ e : Char, e.isDigit = false → e ≠ c := fun e => ne_of_isDigit hc
  constructor
  · simp [readWord, afterLiteral?, after?, List.isPrefixOf?, hne]
  · simp [readWord, afterLiteral?, after?, List.isPrefixOf?, hne]

/-- A digit starts a number, and so does a minus in front of one. -/
theorem readStep_of_digit (value : Reader Datum) (hc : c.isDigit = true)
    (cs : List Char) : readStep value (c :: cs) = readNumber false (c :: cs) ∧
      readStep value ('-' :: c :: cs) = readNumber true (c :: cs) := by
  have hne : ∀ e : Char, e.isDigit = false → c ≠ e := fun e he => (ne_of_isDigit hc he).symm
  obtain ⟨hplain, hminus⟩ := readWord_of_digit hc cs
  constructor
  · simp [readStep, hplain, hne]
  · simp [readStep, hminus]

/-- An integer is read back. -/
theorem readsAs_int (depth : Nat) {n : Int}
    (hn : (Nat.toDigits 10 n.natAbs).length ≤ maxDigits) :
    ReadsAs (readValue (depth + 1)) (.int n) (toString n).toList := by
  obtain ⟨c, cs, hdigits⟩ := List.exists_cons_of_ne_nil
    (Nat.toDigits_ne_nil : Nat.toDigits 10 n.natAbs ≠ [])
  have hc : c.isDigit = true :=
    Nat.isDigit_of_mem_toDigits (by decide) (by decide) (hdigits ▸ List.mem_cons_self ..)
  have hne : ∀ e : Char, e.isDigit = false → c ≠ e := fun e he => (ne_of_isDigit hc he).symm
  have hread := fun negative rest (hrest : EndsNumber rest) =>
    readNumber_digits negative hn hrest
  simp only [hdigits, List.cons_append] at hread
  have hstep := fun rest => readStep_of_digit (readValue depth) hc (cs ++ rest)
  rw [Int.toString_eq_repr, Int.repr_eq_if]
  split
  · rename_i hpos
    have habs : n.toNat = n.natAbs := by omega
    rw [habs, Nat.toList_repr, hdigits]
    refine .of_start c cs ?_ fun rest hrest => ?_
    · simp [isSpace, hne]
    · rw [(hstep rest).1, hread false rest hrest, if_neg (by decide)]
      congr 3
      omega
  · rename_i hneg
    have habs : (-n).toNat = n.natAbs := by omega
    rw [habs, String.toList_append, Nat.toList_repr, hdigits]
    refine .of_start '-' (c :: cs) (by decide) fun rest hrest => ?_
    rw [List.cons_append, (hstep rest).2, hread true rest hrest, if_pos rfl]
    congr 3
    omega

section

variable {style : Style} (hstyle : style.IsStandard) (level depth : Nat)
include hstyle

/-- An array is read back if its items are. -/
theorem readsAs_array {ts : List String}
    (h : List.Forall₂ (ReadsAs (readValue depth)) ds (ts.map String.toList)) :
    ReadsAs (readValue (depth + 1)) (.array ds) (writeItems style level "[" "]" ts).toList := by
  cases ts with
  | nil =>
    cases h
    rw [writeItems, List.isEmpty_nil, if_pos rfl]
    exact .of_start '[' [']'] (by decide) fun rest _ => rfl
  | cons t ts =>
    obtain ⟨lead, gap, tail, hlead, hgap, htail, htext⟩ :=
      toList_writeItems hstyle level "[" "]" (List.cons_ne_nil t ts)
    rw [htext]
    refine .of_start '[' _ (by decide) fun rest _ => ?_
    simpa using readStep_array hgap htail hlead h (by simp) rest

/-- An object is read back if its entries are. -/
theorem readsAs_object (hkeys : (es.map Prod.fst).Nodup) {ts : List String}
    (h : List.Forall₂ (EntryReadsAs (readValue depth)) es (ts.map String.toList)) :
    ReadsAs (readValue (depth + 1)) (.object es)
      (writeItems style level "\x7b" "\x7d" ts).toList := by
  cases ts with
  | nil =>
    cases h
    rw [writeItems, List.isEmpty_nil, if_pos rfl]
    exact .of_start '{' ['}'] (by decide) fun rest _ => rfl
  | cons t ts =>
    obtain ⟨lead, gap, tail, hlead, hgap, htail, htext⟩ :=
      toList_writeItems hstyle level "\x7b" "\x7d" (List.cons_ne_nil t ts)
    rw [htext]
    refine .of_start '{' _ (by decide) fun rest _ => ?_
    simpa using readStep_object hgap htail hlead h (by simp) hkeys rest

end

mutual

/-- **A value is read back**, by induction on it. -/
theorem readsAs_writeAt {style : Style} (hstyle : style.IsStandard)
    (hsort : style.sortKeys = false) : (d : Datum) → isStorable d = true → (level depth : Nat) →
    Stored.depthOf d ≤ depth + 1 → ReadsAs (readValue (depth + 1)) d (writeAt style level d).toList
  | .null, _, level, depth, _ => by
    rw [writeAt]
    exact .of_start 'n' ['u', 'l', 'l'] (by decide) fun rest _ => rfl
  | .bool true, _, level, depth, _ => by
    rw [writeAt, if_pos rfl]
    exact .of_start 't' ['r', 'u', 'e'] (by decide) fun rest _ => rfl
  | .bool false, _, level, depth, _ => by
    rw [writeAt, if_neg Bool.false_ne_true]
    exact .of_start 'f' ['a', 'l', 's', 'e'] (by decide) fun rest _ => rfl
  | .int n, hn, level, depth, _ => by
    rw [isStorable, decide_eq_true_eq] at hn
    exact readsAs_int depth hn
  | .float x, h, _, _, _ => by
    rw [isStorable] at h
    cases h
  | .string s, _, level, depth, _ => readsAs_string style.asciiOnly depth s
  | .moment m, h, _, _, _ => by
    rw [isStorable] at h
    cases h
  | .array items, hitems, level, depth, hdepth => by
    -- the items are one level down, where one level less is left
    rw [isStorable] at hitems
    rw [Stored.depthOf] at hdepth
    exact readsAs_array hstyle level depth
      (readsAs_writeAll hstyle hsort items hitems (level + 1) depth (by omega))
  | .object entries, hentries, level, depth, hdepth => by
    rw [isStorable, Bool.and_eq_true, decide_eq_true_eq] at hentries
    rw [Stored.depthOf] at hdepth
    rw [writeAt, hsort]
    refine readsAs_object hstyle level depth hentries.1 ?_
    exact readsAs_writeEntries hstyle hsort entries hentries.2 (level + 1) depth (by omega)

theorem readsAs_writeAll {style : Style} (hstyle : style.IsStandard)
    (hsort : style.sortKeys = false) : (ds : List Datum) → allStorable ds = true →
    (level depth : Nat) → Stored.depthAll ds ≤ depth →
    List.Forall₂ (ReadsAs (readValue depth)) ds ((writeAll style level ds).map String.toList)
  | [], _, _, _, _ => .nil
  | d :: ds, h, level, depth, hdepth => by
    rw [allStorable, Bool.and_eq_true] at h
    rw [Stored.depthAll] at hdepth
    have hpos := Stored.depthOf_pos d
    obtain ⟨depth, rfl⟩ : ∃ k, depth = k + 1 := ⟨depth - 1, by omega⟩
    exact .cons (readsAs_writeAt hstyle hsort d h.1 level depth (by omega))
      (readsAs_writeAll hstyle hsort ds h.2 level (depth + 1) (by omega))

theorem readsAs_writeEntries {style : Style} (hstyle : style.IsStandard)
    (hsort : style.sortKeys = false) : (es : List (String × Datum)) →
    entriesStorable es = true → (level depth : Nat) → Stored.depthEntries es ≤ depth →
    List.Forall₂ (EntryReadsAs (readValue depth)) es
      (((writeEntries style level es).map fun (k, v) =>
        writeString style.asciiOnly k ++ style.keyMark ++ v).map String.toList)
  | [], _, _, _, _ => .nil
  | (k, d) :: es, h, level, depth, hdepth => by
    rw [entriesStorable, Bool.and_eq_true] at h
    rw [Stored.depthEntries] at hdepth
    have hpos := Stored.depthOf_pos d
    obtain ⟨depth, rfl⟩ : ∃ k, depth = k + 1 := ⟨depth - 1, by omega⟩
    obtain ⟨gap, hgap, hmark⟩ := hstyle.keyMark
    refine .cons ⟨style.asciiOnly, gap, _, hgap,
      readsAs_writeAt hstyle hsort d h.1 level depth (by omega), ?_⟩
      (readsAs_writeEntries hstyle hsort es h.2 level (depth + 1) (by omega))
    simp [writeString, hmark]

end

/-- Written without sorting, data is read back as it was. -/
theorem read_write (hstyle : style.IsStandard) (hsort : style.sortKeys = false)
    (hd : isStorable d = true) (hdepth : Stored.depthOf d ≤ maxDepth) :
    read (write style d) = .ok d := by
  have hreads := readsAs_writeAt hstyle hsort d hd 0 999 hdepth
  obtain ⟨c, cs, htext, hspace, -, hmark⟩ := hreads.starts
  have hvalue : readValue maxDepth (c :: cs) = .ok (d, []) := by
    have hread := hreads.reads [] (by simp [EndsNumber])
    rwa [htext, List.append_nil] at hread
  have hskip : skipSpace (c :: cs) = c :: cs := List.dropWhile_cons_of_neg (by simp [hspace])
  have hhead : ((c :: cs).head? == some '\ufeff') = false := by simpa using hmark
  rw [read, write, htext, hskip, hhead, hvalue]
  rfl

/-! ## Sorted keys -/

/-- Whether the key of the first entry comes before that of the second or is the same. -/
def entryLe (a b : String × Datum) : Bool :=
  !decide (b.1 < a.1)

mutual

/-- The data with the entries of every object in it sorted by their keys. -/
def sorted : Datum → Datum
  | .array items => .array (sortedAll items)
  | .object entries => .object ((sortedEntries entries).mergeSort entryLe)
  | d => d

/-- `sorted` on lists. -/
def sortedAll : List Datum → List Datum
  | [] => []
  | d :: ds => sorted d :: sortedAll ds

/-- `sorted` on the values of entries. -/
def sortedEntries : List (String × Datum) → List (String × Datum)
  | [] => []
  | (k, d) :: es => (k, sorted d) :: sortedEntries es

end

/-- The data that is written in the end. -/
def Style.arranged (style : Style) (d : Datum) : Datum :=
  if style.sortKeys then sorted d else d

theorem writeEntries_eq_map (style : Style) (level : Nat) (es : List (String × Datum)) :
    writeEntries style level es = es.map fun e => (e.1, writeAt style level e.2) := by
  induction es with
  | nil => rfl
  | cons e es ih => rw [writeEntries, ih, List.map_cons]

theorem sortedEntries_eq_map (es : List (String × Datum)) :
    sortedEntries es = es.map fun e => (e.1, sorted e.2) := by
  induction es with
  | nil => rfl
  | cons e es ih => rw [sortedEntries, ih, List.map_cons]

mutual

/-- Sorting while writing is writing what has been sorted. -/
theorem writeAt_sorted {style : Style} (hsort : style.sortKeys = true) :
    (d : Datum) → (level : Nat) →
      writeAt style level d = writeAt { style with sortKeys := false } level (sorted d)
  | .null, _ => rfl
  | .bool b, _ => rfl
  | .int n, _ => rfl
  | .float x, _ => rfl
  | .string s, _ => rfl
  | .moment m, _ => rfl
  | .array items, level => by
    rw [sorted, writeAt, writeAt, writeAll_sorted hsort items]
    rfl
  | .object entries, level => by
    have htexts : (writeEntries style (level + 1) entries).mergeSort keyLe =
        writeEntries { style with sortKeys := false } (level + 1)
          ((sortedEntries entries).mergeSort entryLe) := by
      rw [writeEntries_sorted hsort entries, writeEntries_eq_map, writeEntries_eq_map,
        List.map_mergeSort]
      exact fun a _ b _ => rfl
    rw [sorted, writeAt, writeAt, hsort]
    simp only [htexts]
    rfl

theorem writeAll_sorted {style : Style} (hsort : style.sortKeys = true) : (ds : List Datum) →
    (level : Nat) → writeAll style level ds =
      writeAll { style with sortKeys := false } level (sortedAll ds)
  | [], _ => rfl
  | d :: ds, level => by
    rw [sortedAll, writeAll, writeAll, writeAt_sorted hsort d, writeAll_sorted hsort ds]

theorem writeEntries_sorted {style : Style} (hsort : style.sortKeys = true) :
    (es : List (String × Datum)) → (level : Nat) → writeEntries style level es =
      writeEntries { style with sortKeys := false } level (sortedEntries es)
  | [], _ => rfl
  | (k, d) :: es, level => by
    rw [sortedEntries, writeEntries, writeEntries, writeAt_sorted hsort d,
      writeEntries_sorted hsort es]

end

theorem keys_sortedEntries (es : List (String × Datum)) :
    (sortedEntries es).map Prod.fst = es.map Prod.fst := by
  rw [sortedEntries_eq_map, List.map_map]
  rfl

/-! Where no key is there twice, the order of the entries does not matter. -/

theorem lookup_of_perm {α : Type} {es es' : List (String × α)} (hperm : es.Perm es')
    (h : (es.map Prod.fst).Nodup) (key : String) : es.lookup key = es'.lookup key := by
  have h' : (es'.map Prod.fst).Nodup := (hperm.map Prod.fst).nodup_iff.1 h
  ext a
  rw [lookup_eq_some_iff_mem h, lookup_eq_some_iff_mem h', hperm.mem_iff]

/-- A field of sorted data is the field, sorted. -/
theorem get?_sorted (h : (es.map Prod.fst).Nodup) (key : String) :
    (sorted (.object es)).get? key = ((Datum.object es).get? key).map sorted := by
  have hperm := List.mergeSort_perm (sortedEntries es) entryLe
  have hsorted : ((sortedEntries es).map Prod.fst).Nodup := by rwa [keys_sortedEntries]
  rw [sorted, Datum.get?, Datum.get?, ← lookup_of_perm hperm.symm hsorted]
  clear h hperm hsorted
  induction es with
  | nil => rfl
  | cons e es ih =>
    obtain ⟨k, d⟩ := e
    rw [sortedEntries, List.lookup_cons, List.lookup_cons]
    split
    · rfl
    · exact ih

/-! Sorted data is still storable. -/

theorem entriesStorable_eq_all (es : List (String × Datum)) :
    entriesStorable es = es.all fun e => isStorable e.2 := by
  induction es with
  | nil => rfl
  | cons e es ih => rw [entriesStorable, ih, List.all_cons]

theorem depthEntries_le_iff {k : Nat} :
    Stored.depthEntries es ≤ k ↔ ∀ e ∈ es, Stored.depthOf e.2 ≤ k := by
  induction es with
  | nil => simp [Stored.depthEntries]
  | cons e es ih => rw [Stored.depthEntries, Nat.max_le, ih, List.forall_mem_cons]

mutual

theorem isStorable_sorted : (d : Datum) → isStorable (sorted d) = isStorable d
  | .null => rfl
  | .bool b => rfl
  | .int n => rfl
  | .float x => rfl
  | .string s => rfl
  | .moment m => rfl
  | .array items => by rw [sorted, isStorable, isStorable, allStorable_sorted items]
  | .object entries => by
    have hperm := List.mergeSort_perm (sortedEntries entries) entryLe
    have hkeys := (hperm.map Prod.fst).nodup_iff
    rw [keys_sortedEntries] at hkeys
    rw [sorted, isStorable, isStorable, entriesStorable_eq_all, hperm.all_eq,
      ← entriesStorable_eq_all, entriesStorable_sorted entries, decide_eq_decide.2 hkeys]

theorem allStorable_sorted : (ds : List Datum) → allStorable (sortedAll ds) = allStorable ds
  | [] => rfl
  | d :: ds => by
    rw [sortedAll, allStorable, allStorable, isStorable_sorted d, allStorable_sorted ds]

theorem entriesStorable_sorted : (es : List (String × Datum)) →
    entriesStorable (sortedEntries es) = entriesStorable es
  | [] => rfl
  | (k, d) :: es => by
    rw [sortedEntries, entriesStorable, entriesStorable, isStorable_sorted d,
      entriesStorable_sorted es]

end

mutual

theorem depthOf_sorted : (d : Datum) → Stored.depthOf (sorted d) ≤ Stored.depthOf d
  | .null => Nat.le_refl _
  | .bool b => Nat.le_refl _
  | .int n => Nat.le_refl _
  | .float x => Nat.le_refl _
  | .string s => Nat.le_refl _
  | .moment m => Nat.le_refl _
  | .array items => Nat.succ_le_succ (depthAll_sorted items)
  | .object entries => by
    refine Nat.succ_le_succ (depthEntries_le_iff.2 fun e he => ?_)
    rw [List.mem_mergeSort] at he
    exact depthEntries_le_iff.1 (depthEntries_sorted entries) e he

theorem depthAll_sorted : (ds : List Datum) → Stored.depthAll (sortedAll ds) ≤ Stored.depthAll ds
  | [] => Nat.le_refl _
  | d :: ds => by
    have hd := depthOf_sorted d
    have hds := depthAll_sorted ds
    rw [sortedAll, Stored.depthAll, Stored.depthAll]
    omega

theorem depthEntries_sorted : (es : List (String × Datum)) →
    Stored.depthEntries (sortedEntries es) ≤ Stored.depthEntries es
  | [] => Nat.le_refl _
  | (k, d) :: es => by
    have hd := depthOf_sorted d
    have hes := depthEntries_sorted es
    rw [sortedEntries, Stored.depthEntries, Stored.depthEntries]
    omega

end

/-- The text written for the data is read as the data, its keys sorted if they were written so. -/
def ReadsBack (style : Style) (d : Datum) : Prop :=
  read (write style d) = .ok (style.arranged d)

/-- **What is written is read back**, if it is storable and not nested too deeply. -/
theorem readsBack_of_storable (hstyle : style.IsStandard) (hd : isStorable d = true)
    (hdepth : Stored.depthOf d ≤ maxDepth) : ReadsBack style d := by
  rw [ReadsBack, Style.arranged]
  cases hsort : style.sortKeys with
  | false => exact read_write hstyle hsort hd hdepth
  | true =>
    have hplain : Style.IsStandard { style with sortKeys := false } :=
      ⟨hstyle.itemMark, hstyle.keyMark, hstyle.indent⟩
    rw [write, writeAt_sorted hsort d]
    exact read_write hplain rfl (by rw [isStorable_sorted, hd])
      (Nat.le_trans (depthOf_sorted d) hdepth)

end Json
end Atoll
