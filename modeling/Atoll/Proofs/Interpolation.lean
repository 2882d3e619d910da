import Atoll.Proofs.Depth
import Atoll.Proofs.Scanner
import Mathlib

/-!
# Templates put values between their texts

A template is cut into texts and code by counting braces, before anything in it is read as an
expression.  The texts lose their backslashes and the code is read and evaluated as if it stood
alone, so a template has the value that its parts give when they are put together.

* `templateSource` — a template as it is written, with a backslash in front of the marks that its
  texts have in them.
* `closesBraces` — the code whose braces are closed in it, whatever they stand for there.
* `pieces_templateChars`, `pieces_code`, `pieces_writtenHoles` — texts and code are cut where they
  were put together.  Hence `scan_template`: **the scan of a template stops at its closing mark.**
* `evaluateWithin_template` — a template takes one level of the room there is to nest.
* `evaluate_template` — **a template has the text of its texts and values in a row.**
-/

set_option autoImplicit false

namespace Atoll
namespace Expr

open Text

variable {parts : List (String × String)}

/-! ## Templates as they are written -/

/-- A character of a text in a template.  The characters that mean something there stand behind a
backslash. -/
def templateChar (c : Char) : List Char :=
  if c == '\\' || c == '\x60' || c == '$' then ['\\', c] else [c]

/-- A text in a template. -/
def templateChars (s : String) : List Char :=
  s.toList.flatMap templateChar

/-- Code in its braces with the text behind it, one after the other. -/
def writtenHoles : List (String × String) → List Char
  | [] => []
  | (code, text) :: more =>
    '$' :: '{' :: (code.toList ++ '}' :: (templateChars text ++ writtenHoles more))

/-- What stands between the marks of a template: a text, then code with texts behind it. -/
def templateBody (head : String) (parts : List (String × String)) : List Char :=
  templateChars head ++ writtenHoles parts

/-- The source of a template. -/
def templateSource (head : String) (parts : List (String × String)) : String :=
  String.ofList ('\x60' :: (templateBody head parts ++ ['\x60']))

/-- Whether every brace is closed, `depth` of them being open already, and none that is not open.
All braces count, also those in quotes. -/
def closesBraces (depth : Nat) : List Char → Bool
  | [] => depth == 0
  | c :: cs =>
    if c == '{' then closesBraces (depth + 1) cs
    else if c == '}' then depth != 0 && closesBraces (depth - 1) cs
    else closesBraces depth cs

/-- A character is written with a backslash or as it is. -/
theorem templateChar_cases (c : Char) :
    templateChar c = ['\\', c] ∧ escapedChar c = [c] ∧ c ≠ 'u' ∧ c ≠ 'x' ∨
      templateChar c = [c] ∧ c ≠ '\\' ∧ c ≠ '\x60' ∧ c ≠ '$' := by
  by_cases hmark : c = '\\' ∨ c = '\x60' ∨ c = '$'
  · rcases hmark with rfl | rfl | rfl <;> exact .inl ⟨rfl, rfl, by decide⟩
  · rw [not_or, not_or] at hmark
    exact .inr ⟨by simp [templateChar, hmark], hmark⟩

/-- A text means what it was written for. -/
theorem unescape_templateChars (s : String) : unescape (templateChars s) = .ok s := by
  have hmeant (cs : List Char) : unescapeFrom 0 (cs.flatMap templateChar) = .ok cs := by
    induction cs with
    | nil => rfl
    | cons c cs ih =>
      rw [List.flatMap_cons]
      rcases templateChar_cases c with ⟨hc, hescaped, hu, hx⟩ | ⟨hc, hslash, -⟩
      · have hfirst := unescapeFrom_escaped hu hx ih
        rw [hescaped] at hfirst
        rw [hc]
        exact hfirst
      · rw [hc]
        exact unescapeFrom_plain hslash ih
  rw [unescape, templateChars, hmeant]
  exact congrArg Except.ok String.ofList_toList

/-! ## The scan of a template -/

/-- The pieces with a text put in front of the first one. -/
def Pieces.pushAll (w : List Char) (p : Pieces) : Pieces :=
  w.foldr Pieces.push p

theorem Pieces.pushAll_cons (w piece : List Char) (more : List (List Char))
    (rest : Option (List Char)) :
    Pieces.pushAll w (piece :: more, rest) = ((w ++ piece) :: more, rest) := by
  induction w with
  | nil => rfl
  | cons c w ih =>
    rw [Pieces.pushAll, List.foldr_cons]
    exact congrArg (Pieces.push c) ih

theorem pieces_text_plain {c : Char} (hslash : c ≠ '\\') (hmark : c ≠ '\x60') (hdollar : c ≠ '$')
    (cs : List Char) : pieces .text (c :: cs) = (pieces .text cs).push c := by
  rw [pieces]
  all_goals simp [hslash, hmark, hdollar]

theorem pieces_code_plain {c : Char} (hopen : c ≠ '{') (hclose : c ≠ '}') (depth : Nat)
    (cs : List Char) : pieces (.code depth) (c :: cs) = (pieces (.code depth) cs).push c := by
  rw [pieces]
  all_goals simp [hopen, hclose]

/-- A text is one piece, and so far goes on with what is behind it. -/
theorem pieces_templateChars (s : String) (rest : List Char) :
    pieces .text (templateChars s ++ rest) = (pieces .text rest).pushAll (templateChars s) := by
  rw [templateChars]
  induction s.toList with
  | nil => rfl
  | cons c cs ih =>
    rw [List.flatMap_cons, List.append_assoc, Pieces.pushAll, List.foldr_append]
    rcases templateChar_cases c with ⟨hc, -⟩ | ⟨hc, hslash, hmark, hdollar⟩
    · rw [hc]
      exact congrArg (fun p => (Pieces.push c p).push '\\') ih
    · rw [hc, List.singleton_append, pieces_text_plain hslash hmark hdollar, ih]
      rfl

/-- Code is one piece, up to the brace that is not opened in it. -/
theorem pieces_code {depth : Nat} {code : List Char} (h : closesBraces depth code = true)
    (rest : List Char) :
    pieces (.code depth) (code ++ '}' :: rest) = (pieces .text rest).cut.pushAll code := by
  induction code generalizing depth with
  | nil =>
    obtain rfl : depth = 0 := eq_of_beq h
    rfl
  | cons c cs ih =>
    rw [closesBraces] at h
    by_cases hopen : c = '{'
    · rw [hopen] at h ⊢
      have hcloses : closesBraces (depth + 1) cs = true := by simpa using h
      rw [List.cons_append, pieces, ih hcloses]
      rfl
    · by_cases hclose : c = '}'
      · rw [hclose] at h ⊢
        obtain ⟨outer, rfl⟩ : ∃ outer, depth = outer + 1 :=
          Nat.exists_eq_succ_of_ne_zero (by simpa using (Bool.and_eq_true_iff.1 h).1)
        have hcloses : closesBraces outer cs = true := by simpa using h
        rw [List.cons_append, pieces, ih hcloses]
        rfl
      · have hcloses : closesBraces depth cs = true := by simpa [hopen, hclose] using h
        rw [List.cons_append, pieces_code_plain hopen hclose, ih hcloses]
        rfl

/-- The pieces behind the first text of a template, code and text in turn. -/
def holePieces (parts : List (String × String)) : List (List Char) :=
  parts.flatMap fun p => [p.1.toList, templateChars p.2]

/-- **Code and texts are cut where they were put together**, by induction on the holes. -/
theorem pieces_writtenHoles (h : ∀ p ∈ parts, closesBraces 0 p.1.toList = true) (rest : List Char) :
    pieces .text (writtenHoles parts ++ '\x60' :: rest) = ([] :: holePieces parts, some rest) := by
  induction parts with
  | nil => rfl
  | cons p parts ih =>
    obtain ⟨code, text⟩ := p
    rw [List.forall_mem_cons] at h
    have htext : pieces .text (templateChars text ++ (writtenHoles parts ++ '\x60' :: rest)) =
        (templateChars text :: holePieces parts, some rest) := by
      rw [pieces_templateChars, ih h.2, Pieces.pushAll_cons, List.append_nil]
    have hcode : pieces (.code 0) (code.toList ++ '}' ::
        (templateChars text ++ (writtenHoles parts ++ '\x60' :: rest))) =
          (code.toList :: templateChars text :: holePieces parts, some rest) := by
      rw [pieces_code h.1, htext]
      exact (Pieces.pushAll_cons _ [] _ _).trans (by rw [List.append_nil])
    rw [writtenHoles, List.cons_append, List.cons_append, List.append_assoc, List.cons_append,
      List.append_assoc]
    exact congrArg Pieces.cut hcode

theorem templateParts_holePieces (parts : List (String × String)) :
    templateParts (holePieces parts) = .ok parts := by
  induction parts with
  | nil => rfl
  | cons p parts ih =>
    obtain ⟨code, text⟩ := p
    have hcons : holePieces ((code, text) :: parts) =
        code.toList :: templateChars text :: holePieces parts := rfl
    rw [hcons, templateParts, unescape_templateChars, ih, String.ofList_toList]
    rfl

section

variable (head : String) {parts : List (String × String)}
  (h : ∀ p ∈ parts, closesBraces 0 p.1.toList = true)
include h

/-- **The scan of a template stops at its closing mark**, whatever is behind it. -/
theorem scan_template (source : String) (rest : List Char) :
    scan source '\x60' (templateBody head parts ++ ['\x60'] ++ rest) =
      .ok (some (.template head parts),
        ('\x60' :: (templateBody head parts ++ ['\x60'])).length) := by
  have hpieces : pieces .text (templateBody head parts ++ ['\x60'] ++ rest) =
      (templateChars head :: holePieces parts, some rest) := by
    rw [templateBody, List.append_assoc, List.append_assoc, pieces_templateChars,
      List.singleton_append, pieces_writtenHoles h, Pieces.pushAll_cons, List.append_nil]
  have hlength : 1 + ((templateBody head parts ++ ['\x60'] ++ rest).length - rest.length) =
      ('\x60' :: (templateBody head parts ++ ['\x60'])).length := by
    rw [List.length_append, Nat.add_sub_cancel, List.length_cons, Nat.add_comm]
  rw [scan, if_pos (beq_self_eq_true _), scanTemplate, hpieces]
  dsimp only
  rw [unescape_templateChars, templateParts_holePieces, hlength]
  rfl

theorem lex_template : lex (templateSource head parts) = .ok [⟨.template head parts, 0⟩] := by
  have hscan := scan_template head h (templateSource head parts) []
  have hlex := @lexFrom_scan _ 0 _ _ _ _ hscan _ (by rw [lexFrom])
  rw [lex, templateSource, String.toList_ofList]
  rwa [List.append_nil] at hlex

omit h in
/-- Where nothing is left behind an operand, no level goes on. -/
theorem levels_alone {operand : Parser Expr} {ts : List Token} {x : Except Fault Expr}
    (h : operand ts = x.map fun e => (e, []))
    (ops : List (Symbol → Option (Expr → Expr → Expr))) :
    ops.foldl leftAssociative operand ts = x.map fun e => (e, []) := by
  induction ops generalizing operand with
  | nil => exact h
  | cons op? ops ih =>
    refine ih ?_
    rw [leftAssociative, h]
    cases x <;> rfl

/-- A template is read as its text and the expressions in it, which have one level less. -/
theorem whole_template (d : Nat) : whole (parseAt (d + 1)) (templateSource head parts) =
    (templateExprs (whole (parseAt d)) parts).map (.template head) := by
  have hoperand : operand (parseAt d) (templateSource head parts) [⟨.template head parts, 0⟩] =
      ((templateExprs (whole (parseAt d)) parts).map (.template head)).map fun e => (e, []) := by
    show ((templateExprs (whole (parseAt d)) parts).map fun es =>
      (Expr.template head es, ([] : List Token))) >>= _ = _
    cases templateExprs (whole (parseAt d)) parts <;> rfl
  have hlevels := levels_alone hoperand levels
  rw [whole, lex_template head h]
  show (choice (parseAt d) (templateSource head parts) [⟨.template head parts, 0⟩]) >>= _ = _
  rw [choice, hlevels]
  cases templateExprs (whole (parseAt d)) parts <;> rfl

end

/-! ## The value of a template -/

/-- A text with values and further texts behind it, in turn. -/
def interpolated (head : String) (values : List Value) (texts : List String) :
    Except Fault String :=
  (values.mapM Value.toText).map fun shown =>
    head ++ String.join (List.zipWith (· ++ ·) shown texts)

/-- The text in front can be put there last. -/
theorem interpolated_eq_map (head : String) (values : List Value) (texts : List String) :
    interpolated head values texts = (interpolated "" values texts).map (head ++ ·) := by
  rw [interpolated, interpolated]
  cases values.mapM Value.toText with
  | error fault => rfl
  | ok shown => simp [Except.map]

theorem interpolated_cons (v : Value) (values : List Value) (text : String)
    (texts : List String) :
    interpolated "" (v :: values) (text :: texts) = (do
      let shown ← v.toText
      let rest ← interpolated "" values texts
      .ok (shown ++ text ++ rest)) := by
  rw [interpolated, interpolated, List.mapM_cons]
  cases v.toText with
  | error fault => rfl
  | ok shown =>
    cases values.mapM Value.toText with
    | error fault => rfl
    | ok more => simp [Except.map, bind, Except.bind, pure, Except.pure, String.join_cons]

section

variable {names : Bindings} {label : Label} {d : Nat}

/-- The holes of a template are read as expressions, and their values are put between the texts, by
induction on the holes; `k` is the place of the first one. -/
theorem exists_templateExprs {values : List Value} {k : Nat}
    (h : (parts.mapIdx fun i p => evaluateWithin d names ((k + i) :: label) p.1) =
      values.map .ok) :
    ∃ es, templateExprs (whole (parseAt d)) parts = .ok es ∧
      evalParts (run [names] d) ⟨[], 0⟩ label k es =
        interpolated "" values (parts.map Prod.snd) := by
  induction parts generalizing k values with
  | nil =>
    obtain rfl : values = [] := by simpa using h
    exact ⟨[], rfl, rfl⟩
  | cons p parts ih =>
    obtain ⟨code, text⟩ := p
    obtain ⟨v, vs, rfl⟩ : ∃ v vs, values = v :: vs := by
      cases values with
      | nil => simp at h
      | cons v vs => exact ⟨v, vs, rfl⟩
    rw [List.mapIdx_cons, List.map_cons, List.cons.injEq, Nat.add_zero] at h
    obtain ⟨e, hread, hvalue⟩ := exists_of_evaluateWithin h.1
    have hrest : (parts.mapIdx fun i p => evaluateWithin d names ((k + 1 + i) :: label) p.1) =
        vs.map .ok := by
      simpa only [Nat.add_assoc, Nat.add_comm 1] using h.2
    obtain ⟨es, hes, hparts⟩ := ih hrest
    refine ⟨(e, text) :: es, ?_, ?_⟩
    · rw [templateExprs, hread, hes]
      rfl
    · rw [evalParts, hvalue, hparts]
      exact (interpolated_cons v vs text _).symm

/-- A template takes one level more than what is in it. -/
theorem evaluateWithin_template (head : String) {values : List Value}
    (hbraces : ∀ p ∈ parts, closesBraces 0 p.1.toList = true)
    (hvalues : (parts.mapIdx fun i p => evaluateWithin d names (i :: label) p.1) =
      values.map .ok) :
    evaluateWithin (d + 1) names label (templateSource head parts) =
      ((interpolated head values (parts.map Prod.snd)).map Value.string).mapError
        (report (templateSource head parts)) := by
  obtain ⟨es, hes, hparts⟩ := exists_templateExprs (k := 0) (by simpa only [Nat.zero_add] using
    hvalues)
  have hread : whole (parseAt (d + 1)) (templateSource head parts) = .ok (.template head es) := by
    rw [whole_template head hbraces, hes]
    rfl
  have hrun : run [names] (d + 1) (.evaluate ⟨[], 0⟩ label (.template head es)) =
      (evalParts (run [names] d) ⟨[], 0⟩ label 0 es).map fun s => .string (head ++ s) := rfl
  rw [evaluateWithin_of_whole hread, hrun, hparts, interpolated_eq_map head]
  cases interpolated "" values (parts.map Prod.snd) <;> rfl

end

/-- **A template has the text of its texts and values in a row.**  Let a template be written from
texts, and from code between them in which every brace is closed, and let the code have values under
the given names.  Then the value of the template is the first text, the text of the first value, the
next text and so on; if a value has no text, that is what is reported.  Only a template whose code
needs all the room there is to nest may end at the limit instead.  And the scan of the template ends
at its closing mark, whatever is behind it. -/
theorem evaluate_template (names : Bindings) (label : Label) (head : String)
    (parts : List (String × String)) (values : List Value)
    (hbraces : ∀ p ∈ parts, closesBraces 0 p.1.toList = true)
    (hvalues : (parts.mapIdx fun i p => evaluate names (i :: label) p.1) = values.map .ok) :
    let source := templateSource head parts
    let result := ((interpolated head values (parts.map Prod.snd)).map Value.string).mapError
      (report source)
    Within (evaluate names label source) result ∧
      ((parts.mapIdx fun i p => evaluateWithin (maxDepth - 1) names (i :: label) p.1) =
        values.map .ok → evaluate names label source = result) ∧
      ∀ whole rest, scan whole '\x60' (templateBody head parts ++ ['\x60'] ++ rest) =
        .ok (some (.template head parts), source.length) := by
  intro source result
  refine ⟨?_, fun hroom => evaluateWithin_template head hbraces hroom, fun whole rest => ?_⟩
  · -- with one level more there is room for the template, and more room changes nothing else
    have hmore := evaluateWithin_within names label source (Nat.le_succ maxDepth)
    rwa [evaluateWithin_template head hbraces hvalues] at hmore
  · rw [scan_template head hbraces whole rest, ← String.length_ofList]
    rfl

/-- A template with an object and another template in its code, and with all three marks in its
texts. -/
theorem evaluate_template_nested :
    let names : Bindings := [("n", .bool true)]
    let parts := [("\x7bb: n\x7d.b", "\\"), ("`<$\x7bn\x7d>`", "!")]
    let values : List Value := [.bool true, .string "<true>"]
    templateSource "$`" parts = "`\\$\\`$\x7b\x7bb: n\x7d.b\x7d\\\\$\x7b`<$\x7bn\x7d>`\x7d!`" ∧
      (∀ p ∈ parts, closesBraces 0 p.1.toList = true) ∧
      (parts.mapIdx fun i p => evaluate names [i, 7] p.1) = values.map .ok ∧
      evaluate names [7] (templateSource "$`" parts) = .ok (.string "$`true\\<true>!") := by
  intro names parts values
  have hname (d : Nat) (label : Label) :
      evaluateWithin (d + 1) names label "n" = .ok (.bool true) := by
    have hread : whole (parseAt (d + 1)) "n" = .ok (.name "n") := whole_eq_ok (by cbv) rfl
    rw [evaluateWithin_of_whole hread]
    rfl
  have hobject (d : Nat) (label : Label) :
      evaluateWithin (d + 3) names label "\x7bb: n\x7d.b" = .ok (.bool true) := by
    have hread : whole (parseAt (d + 3)) "\x7bb: n\x7d.b" =
        .ok (.member (.object [.pair (.literal (.string "b")) (.name "n")])
          (.literal (.string "b")) false) :=
      whole_eq_ok (by cbv) rfl
    rw [evaluateWithin_of_whole hread]
    rfl
  have hinner (d : Nat) (label : Label) :
      evaluateWithin (d + 2) names label "`<$\x7bn\x7d>`" = .ok (.string "<true>") := by
    have hcloses : ∀ p ∈ [("n", ">")], closesBraces 0 p.1.toList = true := by decide
    have hhole : ([("n", ">")].mapIdx fun i p => evaluateWithin (d + 1) names (i :: label) p.1) =
        [Value.bool true].map .ok := by
      rw [List.mapIdx_cons, hname]
      rfl
    exact (evaluateWithin_template "<" hcloses hhole).trans rfl
  have hvalues (d : Nat) : (parts.mapIdx fun i p => evaluateWithin (d + 3) names [i, 7] p.1) =
      values.map .ok := by
    rw [List.mapIdx_cons, hobject, List.mapIdx_cons, hinner (d + 1)]
    rfl
  have hbraces : ∀ p ∈ parts, closesBraces 0 p.1.toList = true := by decide
  refine ⟨by decide, hbraces, hvalues 997, ?_⟩
  rw [(evaluate_template names [7] "$`" parts values hbraces (hvalues 997)).2.1 (hvalues 996)]
  rfl

end Expr
end Atoll
