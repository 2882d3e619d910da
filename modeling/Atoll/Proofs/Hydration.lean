import Atoll.Proofs.Export
import Atoll.Proofs.Json
import Atoll.Proofs.Reparse
import Atoll.Render.Island

/-!
# No value breaks out of an island

The opening tag of an island holds data of all kinds between its quotes: texts that a page was
given, and the properties of a component as JSON.  Whatever they are, the tag is read back as the
element with just these attributes, and what stands between the quotes decodes to the data.

* `unescape` — the decoder; `unescape_escaped` — it undoes the escaping between either quote.
* `unifyNewlines_written` — reading line ends alike changes nothing but the values.
* `lexFrom_unified` — **attributes between quotes are read one by one**, by induction on them.
* `return_not_mem_writeAt` — JSON has no raw carriage return, so it comes back as it was written.
* `isStorable_toDatum` — properties without doubles can be read back from their JSON.
* `Render.Island.tokenize_markup` — the result.
-/

set_option autoImplicit false

namespace Atoll
namespace Markup

open Text

variable {c : Char}

/-! ## Escaping -/

/-- A value between quotes, character by character. -/
def escaped (quote : Char) (s : List Char) : List Char :=
  s.flatMap fun c => if c == '&' || c == quote then escapeChar c else [c]

theorem toList_escapeBetween (quote : Char) (s : String) :
    (escapeBetween quote s).toList = escaped quote s.toList := by
  rw [escapeBetween, String.toList_ofList, escaped]

/-- The characters that a value between quotes stands for. -/
def unescape : List Char → List Char
  | '&' :: 'a' :: 'm' :: 'p' :: ';' :: cs => '&' :: unescape cs
  | '&' :: 'q' :: 'u' :: 'o' :: 't' :: ';' :: cs => '"' :: unescape cs
  | '&' :: '#' :: '3' :: '9' :: ';' :: cs => '\'' :: unescape cs
  | c :: cs => c :: unescape cs
  | [] => []

theorem unescape_cons (hc : c ≠ '&') (cs : List Char) : unescape (c :: cs) = c :: unescape cs := by
  rw [unescape]
  · exact fun _ h => absurd h hc
  · exact fun _ h => absurd h hc
  · exact fun _ h => absurd h hc

theorem escaped_plain {q : Char} (hand : c ≠ '&') (hquote : c ≠ q) (cs : List Char) :
    escaped q (c :: cs) = c :: escaped q cs := by
  rw [escaped, List.flatMap_cons, if_neg (by simp [hand, hquote]), List.singleton_append, escaped]

theorem escaped_special {q : Char} (hc : c = '&' ∨ c = q) (cs : List Char) :
    escaped q (c :: cs) = escapeChar c ++ escaped q cs := by
  rw [escaped, List.flatMap_cons, if_pos (by simpa using hc), escaped]

section

variable {q : Char} (hq : q = '\'' ∨ q = '"')

include hq

/-- **Decoding undoes escaping**, between either quote. -/
theorem unescape_escaped (s : List Char) : unescape (escaped q s) = s := by
  induction s with
  | nil => rfl
  | cons c cs ih =>
    by_cases hand : c = '&'
    · subst hand
      rw [escaped_special (.inl rfl)]
      exact congrArg _ ih
    by_cases hquote : c = q
    · subst hquote
      rw [escaped_special (.inr rfl)]
      rcases hq with rfl | rfl
      · exact congrArg _ ih
      · exact congrArg _ ih
    · rw [escaped_plain hand hquote, unescape_cons hand, ih]

/-! ## Line ends -/

omit hq in
theorem unifyNewlines_cons {s : List Char} (h : c ≠ '\r' ∨ s.head? ≠ some '\n') :
    unifyNewlines (c :: s) = c :: unifyNewlines s := by
  rw [unifyNewlines]
  rintro cs rfl rfl
  rcases h with h | h
  · exact h rfl
  · exact h rfl

omit hq in
theorem unifyNewlines_append_of_not_mem {a : List Char} (h : '\r' ∉ a) (b : List Char) :
    unifyNewlines (a ++ b) = a ++ unifyNewlines b := by
  induction a with
  | nil => rfl
  | cons c a ih =>
    rw [List.mem_cons, not_or] at h
    rw [List.cons_append, unifyNewlines_cons (.inl (Ne.symm h.1)), ih h.2, List.cons_append]

omit hq in
/-- A text that does not start with a newline makes no line end with what stands before it. -/
theorem unifyNewlines_append {b : List Char} (hb : b.head? ≠ some '\n') (a : List Char) :
    unifyNewlines (a ++ b) = unifyNewlines a ++ unifyNewlines b := by
  fun_induction unifyNewlines a with
  | case1 cs ih => exact congrArg _ ih
  | case2 c cs hne ih =>
    rw [List.cons_append, unifyNewlines_cons, ih, List.cons_append]
    by_cases hc : c = '\r'
    · refine .inr fun hhead => ?_
      cases cs with
      | nil => exact hb hhead
      | cons d ds => exact hne ds hc (by rw [Option.some.inj hhead])
    · exact .inl hc
  | case3 => rfl

theorem return_not_mem_escapeChar (hc : c = '&' ∨ c = q) : '\r' ∉ escapeChar c := by
  rcases hc with rfl | rfl
  · decide
  · rcases hq with rfl | rfl <;> decide

/-- Line ends may be read alike before or after escaping. -/
theorem unifyNewlines_escaped (s : List Char) :
    unifyNewlines (escaped q s) = escaped q (unifyNewlines s) := by
  fun_induction unifyNewlines s with
  | case1 cs ih =>
    have hplain : ∀ d, d = '\r' ∨ d = '\n' → d ≠ '&' ∧ d ≠ q := by
      rcases hq with rfl | rfl <;> rintro d (rfl | rfl) <;> decide
    obtain ⟨hand, hquote⟩ := hplain '\r' (.inl rfl)
    obtain ⟨hand', hquote'⟩ := hplain '\n' (.inr rfl)
    rw [escaped_plain hand hquote, escaped_plain hand' hquote', escaped_plain hand' hquote',
      unifyNewlines, ih]
  | case2 c cs hne ih =>
    by_cases hc : c = '&' ∨ c = q
    · rw [escaped_special hc, escaped_special hc,
        unifyNewlines_append_of_not_mem (return_not_mem_escapeChar hq hc), ih]
    · rw [not_or] at hc
      rw [escaped_plain hc.1 hc.2, escaped_plain hc.1 hc.2, unifyNewlines_cons, ih]
      -- a newline behind the character would have been there before
      rw [← not_and_or]
      rintro ⟨rfl, hhead⟩
      have hnewline : '\n' ∈ cs.head? := head?_flatMap_escapeBetween hq hhead rfl
      obtain ⟨ds, rfl⟩ := List.head?_eq_some_iff.1 hnewline
      exact hne ds rfl rfl
  | case3 => rfl

end

/-! ## Attributes -/

/-- An attribute between quotes. -/
structure Enclosed where
  name : String
  quote : Char
  value : String

namespace Enclosed

/-- An attribute with a value, and with the blank in front of it. -/
def holding (a : Enclosed) (value : List Char) : List Char :=
  ' ' :: a.name.toList ++ '=' :: a.quote :: escaped a.quote value ++ [a.quote]

/-- An attribute as it is written. -/
def written (a : Enclosed) : List Char :=
  a.holding a.value.toList

/-- An attribute as it is written, its line ends read alike. -/
def unified (a : Enclosed) : List Char :=
  a.holding (unifyNewlines a.value.toList)

/-- Whether an attribute has a name and stands between quotes. -/
structure IsProper (a : Enclosed) : Prop where
  ne_nil : a.name.toList ≠ []
  chars : ∀ c ∈ a.name.toList, isAttrChar c = true
  quote : a.quote = '\'' ∨ a.quote = '"'

/-- Two tokens say an attribute: its name, and between quotes that do not occur in between what
decodes to its value. -/
structure ReadAs (a : Enclosed) (name value : Token) : Prop where
  name_kind : name.kind = .attrName
  name_value : name.value = a.name
  value_kind : value.kind = .attrValue
  complete : value.incomplete = false
  enclosed : ∃ inner, value.value.toList = a.quote :: inner ++ [a.quote] ∧ a.quote ∉ inner ∧
    unescape inner = unifyNewlines a.value.toList

variable {a : Enclosed}

theorem IsProper.ofName {name : String} {quote : Char}
    (hname : name.toList ≠ [] ∧ name.toList.all isAttrChar = true)
    (hquote : quote = '\'' ∨ quote = '"') (value : String) : IsProper ⟨name, quote, value⟩ :=
  ⟨hname.1, List.all_eq_true.1 hname.2, hquote⟩

theorem IsProper.not_mem_escaped (h : a.IsProper) (s : List Char) :
    a.quote ∉ escaped a.quote s := by
  have hnot := quote_not_mem_escapeBetween h.quote (String.ofList s)
  rwa [toList_escapeBetween, String.toList_ofList] at hnot

theorem IsProper.unifyNewlines_written (h : a.IsProper) : unifyNewlines a.written = a.unified := by
  have hname : '\r' ∉ ' ' :: a.name.toList ++ ['=', a.quote] := by
    have hchars : '\r' ∉ a.name.toList := fun hmem => absurd (h.chars _ hmem) (by decide)
    have hquote : '\r' ≠ a.quote := by rcases h.quote with hq | hq <;> rw [hq] <;> decide
    simp [hchars, hquote]
  have hend : [a.quote].head? ≠ some '\n' ∧ unifyNewlines [a.quote] = [a.quote] := by
    rcases h.quote with hq | hq <;> rw [hq] <;> decide
  have hsplit : ∀ value, a.holding value =
      (' ' :: a.name.toList ++ ['=', a.quote]) ++ (escaped a.quote value ++ [a.quote]) := by
    intro value
    simp [holding]
  rw [written, hsplit, unifyNewlines_append_of_not_mem hname, unifyNewlines_append hend.1,
    unifyNewlines_escaped h.quote, hend.2, unified, hsplit]

end Enclosed

/-- Reading line ends alike changes nothing but the values. -/
theorem unifyNewlines_written {attrs : List Enclosed} (h : ∀ a ∈ attrs, a.IsProper)
    {more : List Char} (hmore : more.head? ≠ some '\n') :
    unifyNewlines (attrs.flatMap Enclosed.written ++ more) =
      attrs.flatMap Enclosed.unified ++ unifyNewlines more := by
  induction attrs with
  | nil => rfl
  | cons a attrs ih =>
    rw [List.forall_mem_cons] at h
    have hhead : (attrs.flatMap Enclosed.written ++ more).head? ≠ some '\n' := by
      cases attrs with
      | nil => exact hmore
      | cons b attrs => simp [Enclosed.written, Enclosed.holding]
    rw [List.flatMap_cons, List.append_assoc, unifyNewlines_append hhead,
      h.1.unifyNewlines_written, ih h.2, List.flatMap_cons, List.append_assoc]

/-- **Attributes between quotes are read one by one**, by induction on them. -/
theorem lexFrom_unified (tag : List Char) {attrs : List Enclosed} (h : ∀ a ∈ attrs, a.IsProper)
    (p : Position) (more : List Char) :
    ∃ pairs : List (Token × Token),
      lexFrom (.tag tag) ⟨p, attrs.flatMap Enclosed.unified ++ more⟩ =
        pairs.flatMap (fun t => [t.1, t.2]) ++
          lexFrom (.tag tag) ⟨p.across (attrs.flatMap Enclosed.unified), more⟩ ∧
      List.Forall₂ (fun a t => a.ReadAs t.1 t.2) attrs pairs := by
  induction attrs generalizing p with
  | nil => exact ⟨[], rfl, .nil⟩
  | cons a attrs ih =>
    rw [List.forall_mem_cons] at h
    obtain ⟨ha, hattrs⟩ := h
    obtain ⟨pairs, hlex, hpairs⟩ := ih hattrs (p.across a.unified)
    have hfree := ha.not_mem_escaped (unifyNewlines a.value.toList)
    have hread := lexFrom_quoted (p := p) tag ha.quote ha.ne_nil ha.chars hfree
      (attrs.flatMap Enclosed.unified ++ more)
    rw [← Enclosed.holding, ← Enclosed.unified, hlex] at hread
    rw [List.flatMap_cons, Position.across_append, List.append_assoc, hread]
    exact ⟨(_, _) :: pairs, rfl, .cons ⟨rfl, String.ofList_toList, rfl, rfl, _,
      String.toList_ofList, hfree, unescape_escaped ha.quote _⟩ hpairs⟩

end Markup

/-! ## JSON -/

namespace Decimal

/-- A character from a digit is no control character: the digits start at `0`. -/
theorem return_not_mem_digitText (ds : List Nat) : '\r' ∉ (digitText ds).toList := by
  rw [digitText, String.toList_ofList, List.mem_map]
  rintro ⟨d, -, hd⟩
  have hvalue := congrArg Char.toNat hd
  rw [Char.toNat_ofNat] at hvalue
  split at hvalue
  · have hthirteen : 48 + d = 13 := hvalue
    omega
  · exact absurd hvalue (by decide)

theorem return_not_mem_positional (d : Digits) : '\r' ∉ (positional d).toList := by
  rw [positional]
  split
  · simp [return_not_mem_digitText]
  · dsimp only
    split <;> simp [return_not_mem_digitText]

theorem return_not_mem_exponential (width : Nat) (d : Digits) :
    '\r' ∉ (exponential width d).toList := by
  rw [exponential]
  split <;> split <;> simp [return_not_mem_digitText]

theorem return_not_mem_literal (x : Float) : '\r' ∉ (literal x).toList := by
  rw [literal, literalWith]
  split
  · decide
  · split <;> decide
  · dsimp only
    split <;> split <;> simp [return_not_mem_positional, return_not_mem_exponential]

end Decimal

namespace Json

theorem return_not_mem_writeFloat (x : Float) : '\r' ∉ (writeFloat x).toList := by
  rw [writeFloat]
  split
  · decide
  · split <;> decide
  · exact Decimal.return_not_mem_literal x

theorem return_not_mem_int (n : Int) : '\r' ∉ (toString n).toList := by
  have hdigits : ∀ k : Nat, '\r' ∉ Nat.toDigits 10 k := fun k hmem =>
    absurd (Nat.isDigit_of_mem_toDigits (by decide) (by decide) hmem) (by decide)
  rw [Int.toString_eq_repr, Int.repr_eq_if]
  split <;> simp [hdigits]

theorem return_not_mem_unicodeEscape (n : Nat) : '\r' ∉ unicodeEscape n := by
  have hhex : '\r' ∉ Text.hexPadded 4 n := fun hmem =>
    absurd (Text.isHex_of_mem_hexPadded 4 n _ hmem) (by decide)
  simp [unicodeEscape, hhex]

theorem return_not_mem_writeChar (asciiOnly : Bool) (c : Char) :
    '\r' ∉ writeChar asciiOnly c := by
  rcases writeChar_cases asciiOnly c with ⟨e, h, he, -⟩ | ⟨h, -, -, hc⟩ | ⟨h, -⟩ |
    ⟨-, n, -, -, h⟩
  · have hreturn : '\r' ≠ e := by
      rintro rfl
      cases he
    simp [h, hreturn]
  · have hreturn : '\r' ≠ c := by
      rintro rfl
      exact absurd hc (by decide)
    simp [h, hreturn]
  · rw [h]
    exact return_not_mem_unicodeEscape _
  · rw [h, List.mem_append, not_or]
    exact ⟨return_not_mem_unicodeEscape _, return_not_mem_unicodeEscape _⟩

theorem return_not_mem_writeString (asciiOnly : Bool) (s : String) :
    '\r' ∉ (writeString asciiOnly s).toList := by
  simp [writeString, return_not_mem_writeChar]

/-- Items without carriage returns have none between brackets. -/
theorem return_not_mem_writeItems (level : Nat) {opening closing : String} {items : List String}
    (hopening : '\r' ∉ opening.toList) (hclosing : '\r' ∉ closing.toList)
    (h : ∀ s ∈ items, '\r' ∉ s.toList) :
    '\r' ∉ (writeItems .compact level opening closing items).toList := by
  have hjoined : '\r' ∉ (",".intercalate items).toList := by
    rw [String.toList_intercalate]
    induction items with
    | nil => simp
    | cons s items ih =>
      rw [List.forall_mem_cons] at h
      cases items with
      | nil => simpa using h.1
      | cons t items => simpa [List.intercalate_cons_cons] using ⟨h.1, ih h.2⟩
  rw [writeItems]
  split
  · simp [hopening, hclosing]
  · simpa [Style.compact, hopening, hclosing] using hjoined

/-! JSON on one line has no carriage return: inside strings it is an escape. -/

mutual

theorem return_not_mem_writeAt : (d : Datum) → (level : Nat) →
    '\r' ∉ (writeAt .compact level d).toList
  | .null, _ => by
    rw [writeAt]
    decide
  | .bool b, _ => by
    rw [writeAt]
    cases b <;> decide
  | .int n, _ => return_not_mem_int n
  | .float x, _ => return_not_mem_writeFloat x
  | .string s, _ => return_not_mem_writeString _ s
  | .moment m, _ => return_not_mem_writeString _ m.literal
  | .array items, level => by
    rw [writeAt]
    exact return_not_mem_writeItems level (by decide) (by decide)
      (return_not_mem_writeAll items (level + 1))
  | .object entries, level => by
    rw [writeAt]
    refine return_not_mem_writeItems level (by decide) (by decide) fun s hs => ?_
    obtain ⟨e, he, rfl⟩ := List.mem_map.1 hs
    have hvalue := return_not_mem_writeEntries entries (level + 1) e he
    simpa [Style.compact, return_not_mem_writeString] using hvalue

theorem return_not_mem_writeAll : (ds : List Datum) → (level : Nat) →
    ∀ s ∈ writeAll .compact level ds, '\r' ∉ s.toList
  | [], _ => List.forall_mem_nil _
  | d :: ds, level => List.forall_mem_cons.2
    ⟨return_not_mem_writeAt d level, return_not_mem_writeAll ds level⟩

theorem return_not_mem_writeEntries : (es : List (String × Datum)) → (level : Nat) →
    ∀ e ∈ writeEntries .compact level es, '\r' ∉ e.2.toList
  | [], _ => List.forall_mem_nil _
  | (_, d) :: es, level => List.forall_mem_cons.2
    ⟨return_not_mem_writeAt d level, return_not_mem_writeEntries es level⟩

end

end Json

/-! ## Properties as data -/

namespace Json

/-- The integers that go into data have few digits. -/
theorem isStorable_int {n : Int} (h : Number.isFinite (.int n) = true) :
    isStorable (.int n) = true := by
  have hpower {k : Nat} (hk : k ≤ Text.maxDigits) : 2 ^ k ≤ 10 ^ Text.maxDigits := by
    calc 2 ^ k ≤ 10 ^ k := Nat.pow_le_pow_left (by decide) k
      _ ≤ 10 ^ Text.maxDigits := Nat.pow_le_pow_right (by decide) hk
  have hsmall : n.natAbs < 10 ^ Text.maxDigits := by
    calc n.natAbs < Double.limit := (Number.isFinite_int_iff n).1 h
      _ ≤ 2 ^ 1024 := Nat.sub_le _ _
      _ ≤ 10 ^ Text.maxDigits := hpower (by decide)
  rw [isStorable, decide_eq_true_eq]
  exact (Nat.length_toDigits_le_iff (by decide) (by decide)).2 hsmall

theorem entriesStorable_iff (es : List (String × Datum)) :
    entriesStorable es = true ↔ ∀ e ∈ es, isStorable e.2 = true := by
  induction es with
  | nil => simp [entriesStorable]
  | cons e es ih => simp [entriesStorable, ih]

/-- Entries that are set one after the other make an object that can be read back. -/
theorem isStorable_setEntries {es : List (String × Datum)} (h : entriesStorable es = true) :
    isStorable (.object (setEntries [] es)) = true := by
  have hkeys : ((setEntries [] es).map Prod.fst).Nodup := nodup_keys_setEntries List.nodup_nil
  have hvalues : entriesStorable (setEntries [] es) = true :=
    (entriesStorable_iff _).2 (forall_setEntries (P := fun d => isStorable d = true)
      (List.forall_mem_nil _) ((entriesStorable_iff es).1 h))
  rw [isStorable, hvalues, decide_eq_true hkeys, Bool.and_self]

end Json

namespace Value

mutual

/-- Whether there is a double in a value.  Functions are not looked into. -/
def hasFloat : Value → Bool
  | .number (.float _) => true
  | .array _ items => anyFloat items
  | .object _ entries => floatAmong entries
  | _ => false

/-- `hasFloat` on lists. -/
def anyFloat : List Value → Bool
  | [] => false
  | v :: vs => hasFloat v || anyFloat vs

/-- `hasFloat` on entries. -/
def floatAmong : List (Value × Value) → Bool
  | [] => false
  | (_, v) :: rest => hasFloat v || floatAmong rest

end

open Json

/-! Without doubles, data can be read back from its JSON. -/

mutual

theorem isStorable_toDatum : (v : Value) → v.hasFloat = false → isStorable v.toDatum = true
  | .undefined, _ => rfl
  | .null, _ => rfl
  | .bool _, _ => rfl
  | .number (.int n), _ => by
    rw [toDatum]
    split
    · rename_i hfinite
      exact isStorable_int hfinite
    · rfl
  | .number (.float _), h => by
    rw [hasFloat] at h
    cases h
  | .string _, _ => rfl
  | .array _ items, h => by
    rw [hasFloat] at h
    exact allStorable_toData items h
  | .object _ entries, h => by
    rw [hasFloat] at h
    exact isStorable_setEntries (entriesStorable_toDataEntries entries h)
  | .builtin _, _ => rfl
  | .library _, _ => rfl
  | .method _ _ _, _ => rfl
  | .closure _ _ _ _ _, _ => rfl
  | .foreign _ _, _ => rfl

theorem allStorable_toData : (vs : List Value) → anyFloat vs = false →
    allStorable (toData vs) = true
  | [], _ => rfl
  | v :: vs, h => by
    rw [anyFloat, Bool.or_eq_false_iff] at h
    rw [toData, allStorable, isStorable_toDatum v h.1, allStorable_toData vs h.2, Bool.and_self]

theorem entriesStorable_toDataEntries : (es : List (Value × Value)) → floatAmong es = false →
    entriesStorable (toDataEntries es) = true
  | [], _ => rfl
  | (k, v) :: es, h => by
    rw [floatAmong, Bool.or_eq_false_iff] at h
    have hes := entriesStorable_toDataEntries es h.2
    rw [toDataEntries]
    split
    · rw [entriesStorable, isStorable_toDatum v h.1, hes, Bool.and_self]
    · exact hes

end

end Value

namespace Render
namespace Island

open Markup Text

/-- The attributes of an island: the properties stand between single quotes, and the value of the
directive is there only if it has one. -/
def enclosed (i : Island) : List Enclosed :=
  [⟨"uid", '"', i.uid⟩, ⟨"component-export", '"', i.name⟩,
    ⟨"component-props", '\'', propsJson i.props⟩, ⟨"client-directive", '"', i.directive⟩]
    ++ (i.value.map fun value => ⟨"directive-value", '"', value⟩).toList

theorem isProper_enclosed (i : Island) : ∀ a ∈ i.enclosed, a.IsProper := by
  intro a ha
  rw [enclosed, List.mem_append] at ha
  rcases ha with ha | ha
  · simp only [List.mem_cons, List.not_mem_nil, or_false] at ha
    rcases ha with rfl | rfl | rfl | rfl <;> exact .ofName (by decide) (by decide) _
  · obtain ⟨value, -, rfl⟩ := Option.map_eq_some_iff.1 (Option.mem_toList.1 ha)
    exact .ofName (by decide) (by decide) _

/-- What stands behind the attributes of an island. -/
def behind (i : Island) : List Char :=
  '>' :: i.inner.toList ++ ("</" ++ tag ++ ">").toList

theorem toList_markup (i : Island) :
    i.markup.toList = '<' :: tag.toList ++ (i.enclosed.flatMap Enclosed.written ++ i.behind) := by
  have hattr : ∀ name value, (quotedAttr name value).toList =
      name.toList ++ '=' :: '"' :: escaped '"' value.toList ++ ['"'] := by
    intro name value
    simp [quotedAttr, escapeAttr, toList_escapeBetween]
  cases hvalue : i.value with
  | none =>
    simp [markup, attrs, enclosed, behind, hvalue, hattr, toList_escapeBetween, Enclosed.written,
      Enclosed.holding]
  | some value =>
    simp [markup, attrs, enclosed, behind, hvalue, hattr, toList_escapeBetween, Enclosed.written,
      Enclosed.holding]

/-- The tokens of an island are those of its markup with the line ends read alike. -/
theorem tokenize_eq (i : Island) :
    tokenize i.markup = lexFrom .content ⟨.first, '<' :: tag.toList ++
      (i.enclosed.flatMap Enclosed.unified ++ '>' ::
        unifyNewlines (i.inner.toList ++ ("</" ++ tag ++ ">").toList))⟩ := by
  have hbehind : unifyNewlines i.behind =
      '>' :: unifyNewlines (i.inner.toList ++ ("</" ++ tag ++ ">").toList) :=
    unifyNewlines_cons (.inl (by decide))
  rw [tokenize, toList_markup, unifyNewlines_append_of_not_mem (by decide),
    unifyNewlines_written i.isProper_enclosed (by simp [behind]), hbehind]
  rfl

/-- **No value breaks out of an island.**  Whatever an island holds, its markup is read as the
opening of its element, then its attributes in their order and nothing else, then the end of the
tag, and then what stands behind the tag.  The values decode to what the island was given, with
Windows line ends as newlines; the properties decode to their JSON as it is, and without doubles
this is read back as the properties, unless they are nested too deeply to be read at all.  There is
such markup for all properties but those with a key that cannot be written. -/
theorem tokenize_markup (i : Island) :
    (∃ (opening closing : Token) (pairs : List (Token × Token)) (start : Position),
      tokenize i.markup = opening :: pairs.flatMap (fun t => [t.1, t.2]) ++ closing ::
        lexFrom .content ⟨start, unifyNewlines (i.inner.toList ++ ("</" ++ tag ++ ">").toList)⟩ ∧
      opening.kind = .tagOpen ∧ opening.value = "islet-island" ∧
      List.Forall₂ (fun a t => a.ReadAs t.1 t.2) i.enclosed pairs ∧
      closing.kind = .tagClose ∧ closing.value = ">") ∧
    unifyNewlines (propsJson i.props).toList = (propsJson i.props).toList ∧
    ((Value.object [] i.props).hasFloat = false →
      Stored.depthOf (Value.object [] i.props).toDatum ≤ Json.maxDepth →
        Json.read (propsJson i.props) = .ok (Value.object [] i.props).toDatum) ∧
    (i.markup? = .ok i.markup ↔ ¬(Value.object [] i.props).HoldsLongKey) := by
  refine ⟨?_, ?_, ?_, ?_⟩
  · let behind := unifyNewlines (i.inner.toList ++ ("</" ++ tag ++ ">").toList)
    have hnext : ∀ c ∈ (i.enclosed.flatMap Enclosed.unified ++ '>' :: behind).head?,
        isTagChar c = false := by
      simp [enclosed, Enclosed.unified, Enclosed.holding]
      decide
    have hname : ∀ c ∈ tag.toList, isTagChar c = true := List.all_eq_true.1 (by decide)
    have hopen := lexFrom_opening (p := .first) (by decide) hname hnext
    obtain ⟨pairs, hpairs, hread⟩ := lexFrom_unified tag.toList i.isProper_enclosed
      (Position.first.across ('<' :: tag.toList)) ('>' :: behind)
    have hraw : isRawTextElement (String.ofList tag.toList) = false := by decide
    obtain ⟨closing, hclosing, hends, -⟩ := lexFrom_tagEnd hraw
      ((Position.first.across ('<' :: tag.toList)).across (i.enclosed.flatMap Enclosed.unified))
      behind
    rw [hpairs, hclosing] at hopen
    rw [Token.endsOpenTag, Bool.and_eq_true, beq_iff_eq, beq_iff_eq] at hends
    exact ⟨_, closing, pairs, _, i.tokenize_eq.trans hopen, rfl, String.ofList_toList, hread,
      hends.1, hends.2⟩
  · have hreturn := Json.return_not_mem_writeAt (Value.object [] i.props).toDatum 0
    exact (unbroken_of_not_mem hreturn).unifyNewlines
  · intro hfloat hdepth
    have hstyle : Json.Style.compact.IsStandard :=
      ⟨⟨[], List.forall_mem_nil _, rfl⟩, ⟨[], List.forall_mem_nil _, rfl⟩,
        fun unit hunit => absurd hunit (by simp [Json.Style.compact])⟩
    exact Json.read_write hstyle rfl (Value.isStorable_toDatum _ hfloat) hdepth
  · rw [← Value.hasLongKey_iff, markup?]
    split <;> simp [*]

end Island
end Render

end Atoll
