import Atoll.Build.Stream

/-!
# The text of an emission

An `Emission` is a list of pieces that a fault may end.  Most of what is said about a document is
about the text that its pieces make, so here `Emission.toText` is worked out for every way in which
emissions are put together, and for the elements of output that is not pretty.

* `Emission.toText_append` — texts follow each other like the emissions do.
* `emitAll_append` — the pieces of two lists of nodes in a row.
* `toText_emit_element` — **the text of an element** is its opening tag, the text of its children
  and its closing tag, however these are cut into pieces.
* `markup_plain` — the markup of a whole document, likewise.
-/

set_option autoImplicit false

namespace Atoll
namespace Build
namespace Emission

open Atoll.Expr (Fault)

/-! ## Putting emissions together -/

section

variable {α : Type}

theorem append_of_fault {a : Emission α} {fault : Fault} (h : a.fault = some fault)
    (b : Emission α) : a ++ b = a := by
  show a.append b = a
  rw [append, h]

theorem append_of_no_fault {a : Emission α} (h : a.fault = none) (b : Emission α) :
    a ++ b = ⟨a.pieces ++ b.pieces, b.fault⟩ := by
  show a.append b = _
  rw [append, h]

@[simp] theorem nothing_append (e : Emission α) : nothing ++ e = e :=
  append_of_no_fault rfl e

theorem append_assoc (a b c : Emission α) : a ++ b ++ c = a ++ (b ++ c) := by
  cases ha : a.fault with
  | some fault => rw [append_of_fault ha, append_of_fault ha, append_of_fault ha]
  | none =>
    rw [append_of_no_fault ha b, append_of_no_fault ha (b ++ c)]
    cases hb : b.fault with
    | some fault =>
      have hab : (⟨a.pieces ++ b.pieces, some fault⟩ : Emission α).fault = some fault := rfl
      rw [append_of_fault hb, append_of_fault hab, hb]
    | none => rw [append_of_no_fault hb, append_of_no_fault (by rfl), List.append_assoc]

end

theorem toText_eq_ok {e : Emission String} {s : String} :
    e.toText = .ok s ↔ e.fault = none ∧ String.join e.pieces = s := by
  rw [toText]
  cases h : e.fault with
  | none => simp
  | some fault => simp

@[simp] theorem toText_nothing : (nothing : Emission String).toText = .ok "" := rfl

@[simp] theorem toText_piece (s : String) : (piece s).toText = .ok s := by
  simp [piece, toText]

@[simp] theorem toText_ofExcept (r : Except Fault String) : (ofExcept r).toText = r := by
  cases r with
  | ok s => exact toText_piece s
  | error fault => rfl

/-- The text of two emissions in a row; the first fault wins. -/
theorem toText_append (a b : Emission String) :
    (a ++ b).toText = a.toText.bind fun x => b.toText.map fun y => x ++ y := by
  cases ha : a.fault with
  | some fault =>
    rw [append_of_fault ha, toText, ha]
    rfl
  | none =>
    rw [append_of_no_fault ha, toText, toText, toText, ha]
    cases hb : b.fault with
    | some fault => rfl
    | none => simp [Except.bind, Except.map]

/-- Both emissions have a text exactly when they have one in a row. -/
theorem toText_append_eq_ok {a b : Emission String} {s : String} :
    (a ++ b).toText = .ok s ↔ ∃ x y, a.toText = .ok x ∧ b.toText = .ok y ∧ x ++ y = s := by
  rw [toText_append]
  cases a.toText with
  | error fault => simp [Except.bind]
  | ok x =>
    cases b.toText with
    | error fault => simp [Except.bind, Except.map]
    | ok y => simp [Except.bind, Except.map]

end Emission

/-! ## Nodes one behind the other -/

open Markup
open Script (Scope)

section

variable (o : Options) (scope : Scope) (depth : Nat)

/-- The pieces of two lists of nodes in a row. -/
theorem emitAll_append (pretty raw : Bool) (xs ys : List Node) :
    emitAll o scope depth pretty raw (xs ++ ys) =
      emitAll o scope depth pretty raw xs ++ emitAll o scope depth pretty raw ys := by
  induction xs with
  | nil => rw [List.nil_append, emitAll, Emission.nothing_append]
  | cons n ns ih => rw [List.cons_append, emitAll, emitAll, ih, Emission.append_assoc]

theorem toText_emitAll_singleton (pretty raw : Bool) (n : Node) :
    (emitAll o scope depth pretty raw [n]).toText = (emit o scope depth pretty raw n).toText := by
  rw [emitAll, emitAll, Emission.toText_append, Emission.toText_nothing]
  cases (emit o scope depth pretty raw n).toText with
  | error fault => rfl
  | ok s => simp [Except.bind, Except.map]

end

/-! ## Elements of output that is not pretty -/

@[simp] theorem indentAt_plain (o : Options) (depth : Nat) : indentAt o depth false = "" := rfl

@[simp] theorem lineEnd_plain : lineEnd false = "" := rfl

@[simp] theorem block_plain (text indent : String) : block text indent false = text := rfl

/-- An element with the given text between its tags.  Void and self-closing elements have no room
for it. -/
def elementText (tag attrs : String) (selfClosing : Bool) (body : String) : String :=
  if isVoidElement tag then "<" ++ tag ++ attrs ++ ">"
  else if selfClosing then "<" ++ tag ++ attrs ++ " />"
  else "<" ++ tag ++ attrs ++ ">" ++ body ++ "</" ++ tag ++ ">"

/-- **The text of an element**, whose children stand in the depth below. -/
theorem toText_emit_element {o : Options} {scope : Scope} {depth : Nat} {raw selfClosing : Bool}
    {tag attrsOut body : String} {attrs : List Attr} {children : List Node} {span : Span}
    (hattrs : attrsText o scope attrs = .ok attrsOut)
    (hbody : (emitAll o scope (depth + 1) false (isRawTextElement (Text.lower tag))
      children).toText = .ok body) :
    (emit o scope depth false raw (.element tag attrs children selfClosing span)).toText =
      .ok (elementText (Text.lower tag) attrsOut selfClosing body) := by
  rw [emit, elementText]
  simp only [hattrs, indentAt_plain, lineEnd_plain, Bool.false_and, Bool.false_eq_true, if_false]
  split
  · simp
  split
  · simp
  split
  · rename_i hempty
    rw [List.isEmpty_iff] at hempty
    subst hempty
    rw [emitAll, Emission.toText_nothing] at hbody
    cases hbody
    simp only [Emission.toText_piece, String.empty_append, String.append_empty,
      String.append_assoc]
  · rw [Emission.toText_append, Emission.toText_append, hbody]
    simp [Except.bind, Except.map, String.append_assoc]

/-- The markup of a document that is not pretty is the text of its nodes. -/
theorem markup_plain {f : Fragment} {o : Options} {names : Bindings} {text : String}
    (hpretty : o.pretty = false) (hnames : namesFor f o = .ok names)
    (h : (emitAll o (.ofNames names) 0 false false f.children).toText = .ok text) :
    markup f o = .ok text := by
  have hfault : o.fault? = none := by simp [Options.fault?, hpretty]
  rw [markup, emission, hnames, hfault, hpretty]
  show ((emit o (.ofNames names) 0 false false f.toNode).toText.map (finish o)) = _
  rw [Fragment.toNode, emit, h]
  simp [Except.map, finish, hpretty]

end Build
end Atoll
