import Atoll.Proofs.Json

/-!
# Stored trees are read back

Data that holds a stored tree need not be the data that was written for it: the fields may stand in
any order, and spans may have been left out.  `Stored.Holds` says what the reader has to find, and
everything else is about getting there.

* `Stored.unplaced` — a tree with every span in it empty.
* `Stored.Holds.ofDatum` — **data that holds a tree is read as that tree**, by induction on the
  tree.
* `Stored.holds_toDatum` — the data written for a tree holds it.
* `Stored.holds_sorted_ofNode` — for a document tree it still does when its keys are sorted, which
  is the order in which they come back from a text.
* `Stored.stored_lossless` — hence storing a tree loses nothing.
-/

set_option autoImplicit false

namespace Atoll

open Markup

namespace Stored

variable {d : Datum} {key : String} {items : List Datum} {indent : Option String}

/-! ## Spans -/

mutual

/-- The stored node with every span in it changed. -/
def mapSpans (g : StoredSpan → StoredSpan) : Stored → Stored
  | .fragment children s => .fragment (mapSpansAll g children) (g s)
  | .frontmatter code s => .frontmatter code (g s)
  | .tagged component tag attrs children selfClosing s =>
    .tagged component tag (mapSpansAll g attrs) (mapSpansAll g children) selfClosing (g s)
  | .text value s => .text value (g s)
  | .expression code s incomplete => .expression code (g s) incomplete
  | .rawHTML value s => .rawHTML value (g s)
  | .attr name value s directive braces => .attr name value (g s) directive braces

/-- The stored nodes with every span in them changed. -/
def mapSpansAll (g : StoredSpan → StoredSpan) : List Stored → List Stored
  | [] => []
  | n :: ns => mapSpans g n :: mapSpansAll g ns

end

/-- The stored node with every span in it empty. -/
def unplaced (n : Stored) : Stored :=
  n.mapSpans fun _ => .empty

mutual

theorem mapSpans_id : (n : Stored) → n.mapSpans id = n
  | .fragment children s => by rw [mapSpans, mapSpansAll_id children, id]
  | .frontmatter code s => rfl
  | .tagged component tag attrs children selfClosing s => by
    rw [mapSpans, mapSpansAll_id attrs, mapSpansAll_id children, id]
  | .text value s => rfl
  | .expression code s incomplete => rfl
  | .rawHTML value s => rfl
  | .attr name value s directive braces => rfl

theorem mapSpansAll_id : (ns : List Stored) → mapSpansAll id ns = ns
  | [] => rfl
  | n :: ns => by rw [mapSpansAll, mapSpans_id n, mapSpansAll_id ns]

end

/-- What is left of a span when spans are kept or not. -/
def keptSpan (spans : Bool) : StoredSpan → StoredSpan :=
  if spans then id else fun _ => .empty

/-! ## Data that holds a tree -/

/-- The span field of a node when spans are kept or not. -/
def spanDatum? (spans : Bool) (s : StoredSpan) : Option Datum :=
  if spans then some s.toDatum else none

/-- The data says its kind and its span. -/
structure Labelled (spans : Bool) (k : StoredKind) (s : StoredSpan) (d : Datum) : Prop where
  kind : d.get? "_type" = some (.string k.name)
  span : d.get? "span" = spanDatum? spans s

mutual

/-- The data has what the reader looks for in a node. -/
def Holds (spans : Bool) : Stored → Datum → Prop
  | .fragment children s, d =>
    Labelled spans .fragment s d ∧
      ∃ items, d.get? "children" = some (.array items) ∧ HoldsAll spans children items
  | .frontmatter code s, d => Labelled spans .frontmatter s d ∧ d.get? "code" = some code
  | .tagged component tag attrs children selfClosing s, d =>
    Labelled spans (if component then .component else .element) s d ∧
      d.get? "tag" = some tag ∧ d.get? "self_closing" = some selfClosing ∧
      (∃ items, d.get? "attrs" = some (.array items) ∧ HoldsAll spans attrs items) ∧
      ∃ items, d.get? "children" = some (.array items) ∧ HoldsAll spans children items
  | .text value s, d => Labelled spans .text s d ∧ d.get? "value" = some value
  | .expression code s incomplete, d =>
    Labelled spans .expression s d ∧ d.get? "code" = some code ∧
      (d.get? "incomplete").getD (.bool false) = incomplete
  | .rawHTML value s, d => Labelled spans .rawHTML s d ∧ d.get? "value" = some value
  | .attr name value s directive braces, d =>
    Labelled spans .attr s d ∧ d.get? "name" = some name ∧ d.get? "value" = some value ∧
      (d.get? "directive").getD .null = directive ∧
      (d.get? "expression").getD (.bool false) = braces

/-- The data has what the reader looks for in a list of nodes. -/
def HoldsAll (spans : Bool) : List Stored → List Datum → Prop
  | [], [] => True
  | n :: ns, d :: ds => Holds spans n d ∧ HoldsAll spans ns ds
  | _, _ => False

end

/-! ## Reading -/

/-- What stands in data is nested less deeply. -/
theorem depthOf_get? {v : Datum} (h : d.get? key = some v) : depthOf v < depthOf d := by
  cases d with
  | object entries =>
    rw [Datum.get?] at h
    rw [depthOf, Nat.lt_succ_iff]
    induction entries with
    | nil => cases h
    | cons e entries ih =>
      obtain ⟨k, e⟩ := e
      rw [List.lookup_cons] at h
      rw [depthEntries]
      split at h
      · cases h
        exact Nat.le_max_left ..
      · exact Nat.le_trans (ih h) (Nat.le_max_right ..)
  | _ => cases h

theorem ofName?_name (k : StoredKind) : StoredKind.ofName? k.name = some k := by
  cases k <;> rfl

theorem Labelled.readKind {spans : Bool} {k : StoredKind} {s : StoredSpan} {d : Datum}
    (h : Labelled spans k s d) : readKind d = .ok k := by
  have hkind := h.kind
  cases d with
  | object entries =>
    rw [Datum.get?] at hkind
    simp only [Stored.readKind, hkind, ofName?_name]
  | _ => cases hkind

theorem Labelled.readSpan {spans : Bool} {k : StoredKind} {s : StoredSpan} {d : Datum}
    (h : Labelled spans k s d) : readSpan (d.get? "span") = .ok (keptSpan spans s) := by
  rw [h.span]
  cases spans with
  | true => rfl
  | false => rfl

/-- A list of nodes that is there. -/
theorem readList_some {node : Datum → Except Error Stored} {d : Option Datum} {ns : List Stored}
    (hd : d = some (.array items)) (h : items.mapM node = .ok ns) :
    readList node d = .ok (some ns) := by
  rw [hd]
  simp only [readList, parts?, h]
  rfl

mutual

/-- **Data that holds a tree is read as that tree**, with the spans that were kept. -/
theorem Holds.within {spans : Bool} : (n : Stored) → (d : Datum) → Holds spans n d → (depth : Nat) →
    depthOf d ≤ depth + 1 → ofDatumWithin (depth + 1) d = .ok (n.mapSpans (keptSpan spans))
  | .fragment children s, d, ⟨hlabel, items, hitems, hall⟩, depth, hdepth => by
    have hless := depthOf_get? hitems
    rw [depthOf] at hless
    have hread := HoldsAll.within children items hall depth (by omega)
    rw [ofDatumWithin, readNode, hlabel.readKind]
    simp only [readList_some hitems hread, hlabel.readSpan]
    rfl
  | .frontmatter code s, d, ⟨hlabel, hcode⟩, depth, hdepth => by
    rw [ofDatumWithin, readNode, hlabel.readKind]
    simp only [hlabel.readSpan, hcode, required]
    rfl
  | .tagged component tag attrs children selfClosing s, d, h, depth, hdepth => by
    obtain ⟨hlabel, htag, hclosing, ⟨items, hitems, hattrs⟩, ⟨inner, hinner, hchildren⟩⟩ := h
    have hless := depthOf_get? hitems
    have hless' := depthOf_get? hinner
    rw [depthOf] at hless hless'
    have hreadAttrs := readList_some hitems (HoldsAll.within attrs items hattrs depth (by omega))
    have hread := readList_some hinner (HoldsAll.within children inner hchildren depth (by omega))
    have htagged : readNode.tagged (ofDatumWithin depth) d component = .ok
        (mapSpans (keptSpan spans) (.tagged component tag attrs children selfClosing s)) := by
      rw [readNode.tagged, hreadAttrs, hread, hlabel.readSpan, htag, hclosing]
      rfl
    rw [ofDatumWithin, readNode, hlabel.readKind]
    cases component with
    | true => exact htagged
    | false => exact htagged
  | .text value s, d, ⟨hlabel, hvalue⟩, depth, hdepth => by
    rw [ofDatumWithin, readNode, hlabel.readKind]
    simp only [hlabel.readSpan, hvalue, required]
    rfl
  | .expression code s incomplete, d, ⟨hlabel, hcode, hincomplete⟩, depth, hdepth => by
    rw [ofDatumWithin, readNode, hlabel.readKind]
    simp only [hlabel.readSpan, hcode, required, hincomplete]
    rfl
  | .rawHTML value s, d, ⟨hlabel, hvalue⟩, depth, hdepth => by
    rw [ofDatumWithin, readNode, hlabel.readKind]
    simp only [hlabel.readSpan, hvalue, required]
    rfl
  | .attr name value s directive braces, d, h, depth, hdepth => by
    obtain ⟨hlabel, hname, hvalue, hdirective, hbraces⟩ := h
    rw [ofDatumWithin, readNode, hlabel.readKind]
    simp only [hlabel.readSpan, hname, hvalue, required, hdirective, hbraces]
    rfl

theorem HoldsAll.within {spans : Bool} : (ns : List Stored) → (ds : List Datum) →
    HoldsAll spans ns ds → (depth : Nat) → depthAll ds ≤ depth →
    ds.mapM (ofDatumWithin depth) = .ok (mapSpansAll (keptSpan spans) ns)
  | [], [], _, depth, _ => rfl
  | n :: ns, d :: ds, ⟨hn, hns⟩, depth, hdepth => by
    rw [depthAll] at hdepth
    have hpos := depthOf_pos d
    obtain ⟨depth, rfl⟩ : ∃ k, depth = k + 1 := ⟨depth - 1, by omega⟩
    rw [List.mapM_cons, Holds.within n d hn depth (by omega),
      HoldsAll.within ns ds hns (depth + 1) (by omega)]
    rfl

end

theorem Holds.ofDatum {spans : Bool} {n : Stored} {d : Datum} (h : Holds spans n d) :
    ofDatum d = .ok (n.mapSpans (keptSpan spans)) := by
  obtain ⟨depth, hdepth⟩ : ∃ k, depthOf d = k + 1 :=
    ⟨depthOf d - 1, by have := depthOf_pos d; omega⟩
  rw [Stored.ofDatum, hdepth]
  exact Holds.within n d h depth (by omega)

/-! ## Writing -/

theorem eq_of_beq_false (h : (d == .bool false) = true) : d = .bool false := by
  cases d with
  | bool b =>
    cases b with
    | false => rfl
    | true => cases h
  | _ => cases h

theorem eq_of_beq_null (h : (d == .null) = true) : d = .null := by
  cases d with
  | null => rfl
  | _ => cases h

/-- A field with a default is found by its own name only. -/
theorem lookup_optionalField_of_ne (name : String) (h : (key == name) = false)
    (d default : Datum) : (optionalField name d default).lookup key = none := by
  rw [optionalField]
  split
  · rfl
  · rw [List.lookup_cons, h]
    rfl

/-- A field that is left out has its default. -/
theorem lookup_optionalField {name : String} {default : Datum}
    (h : (d == default) = true → d = default) :
    ((optionalField name d default).lookup name).getD default = d := by
  rw [optionalField]
  split
  · rename_i hdefault
    exact (h hdefault).symm
  · rw [List.lookup_cons, beq_self_eq_true]
    rfl

/-- The span is found among the last fields. -/
theorem lookup_spanField (hkey : (key == "span") = false) (spans : Bool)
    (s : StoredSpan) : (spanField spans s).lookup key = none := by
  cases spans with
  | true =>
    rw [spanField, if_pos rfl, List.lookup_cons, hkey]
    rfl
  | false => rfl

theorem lookup_span (spans : Bool) (s : StoredSpan) :
    (spanField spans s).lookup "span" = spanDatum? spans s := by
  cases spans <;> rfl

mutual

/-- The data written for a tree holds it. -/
theorem holds_toDatum (spans : Bool) : (n : Stored) → Holds spans n (n.toDatum spans)
  | .fragment children s => by
    refine ⟨⟨rfl, ?_⟩, _, rfl, holdsAll_toData spans children⟩
    cases spans <;> rfl
  | .frontmatter code s => by
    refine ⟨⟨rfl, ?_⟩, rfl⟩
    cases spans <;> rfl
  | .tagged component tag attrs children selfClosing s => by
    refine ⟨⟨rfl, ?_⟩, rfl, rfl, ⟨_, rfl, holdsAll_toData spans attrs⟩, _, rfl,
      holdsAll_toData spans children⟩
    cases spans <;> rfl
  | .text value s => by
    refine ⟨⟨rfl, ?_⟩, rfl⟩
    cases spans <;> rfl
  | .expression code s incomplete => by
    refine ⟨⟨rfl, ?_⟩, rfl, ?_⟩
    · show (spanField spans s ++ optionalField "incomplete" incomplete _).lookup "span" = _
      rw [List.lookup_append, lookup_span, lookup_optionalField_of_ne _ rfl, Option.or_none]
    · show ((spanField spans s ++ optionalField "incomplete" incomplete _).lookup _).getD _ = _
      rw [List.lookup_append, lookup_spanField rfl, Option.none_or,
        lookup_optionalField eq_of_beq_false]
  | .rawHTML value s => by
    refine ⟨⟨rfl, ?_⟩, rfl⟩
    cases spans <;> rfl
  | .attr name value s directive braces => by
    refine ⟨⟨rfl, ?_⟩, rfl, rfl, ?_, ?_⟩
    · show (spanField spans s ++ optionalField "directive" directive _ ++
        optionalField "expression" braces _).lookup "span" = _
      rw [List.lookup_append, List.lookup_append, lookup_span, lookup_optionalField_of_ne _ rfl,
        lookup_optionalField_of_ne _ rfl, Option.or_none, Option.or_none]
    · show ((spanField spans s ++ optionalField "directive" directive _ ++
        optionalField "expression" braces _).lookup _).getD _ = _
      rw [List.lookup_append, List.lookup_append, lookup_spanField rfl, Option.none_or,
        lookup_optionalField_of_ne "expression" rfl, Option.or_none,
        lookup_optionalField eq_of_beq_null]
    · show ((spanField spans s ++ optionalField "directive" directive _ ++
        optionalField "expression" braces _).lookup _).getD _ = _
      rw [List.lookup_append, List.lookup_append, lookup_spanField rfl, Option.none_or,
        lookup_optionalField_of_ne _ rfl, Option.none_or, lookup_optionalField eq_of_beq_false]

theorem holdsAll_toData (spans : Bool) : (ns : List Stored) → HoldsAll spans ns (toData spans ns)
  | [] => trivial
  | n :: ns => ⟨holds_toDatum spans n, holdsAll_toData spans ns⟩

end

/-! ## Documents -/

theorem toAttr?_ofAttr (a : Attr) : (ofAttr a).toAttr? = some a := by
  obtain ⟨name, value, span, directive, braces⟩ := a
  cases value <;> cases directive <;> rfl

theorem mapM_toAttr?_ofAttr (attrs : List Attr) :
    (attrs.map ofAttr).mapM toAttr? = some attrs := by
  induction attrs with
  | nil => rfl
  | cons a attrs ih => rw [List.map_cons, List.mapM_cons, toAttr?_ofAttr, ih]; rfl

mutual

/-- The stored form of a node is a stored form of no other. -/
theorem toNode?_ofNode : (n : Node) → (ofNode n).toNode? = some n
  | .text value s => rfl
  | .expression code s incomplete => rfl
  | .raw value s => rfl
  | .frontmatter code s => rfl
  | .element tag attrs children selfClosing s => by
    rw [ofNode, toNode?, mapM_toAttr?_ofAttr, toNodes?_ofNodes children]
    rfl
  | .component tag attrs children selfClosing s => by
    rw [ofNode, toNode?, mapM_toAttr?_ofAttr, toNodes?_ofNodes children]
    rfl
  | .fragment children s => by
    rw [ofNode, toNode?, toNodes?_ofNodes children]
    rfl

theorem toNodes?_ofNodes : (ns : List Node) → toNodes? (ofNodes ns) = some ns
  | [] => rfl
  | n :: ns => by
    rw [ofNodes, toNodes?, toNode?_ofNode n, toNodes?_ofNodes ns]
    rfl

end

/-! ## Text -/

/-- A stored node is data of fields with different names. -/
theorem toDatum_eq_object (spans : Bool) (n : Stored) :
    ∃ es, n.toDatum spans = .object es ∧ (es.map Prod.fst).Nodup := by
  cases n with
  | expression code s incomplete =>
    refine ⟨_, rfl, ?_⟩
    rw [optionalField]
    cases spans <;> split <;> simp [kindField, spanField]
  | attr name value s directive braces =>
    refine ⟨_, rfl, ?_⟩
    rw [optionalField, optionalField]
    cases spans <;> split <;> split <;> simp [kindField, spanField]
  | _ =>
    refine ⟨_, rfl, ?_⟩
    cases spans <;> simp [kindField, spanField]

section

variable {spans : Bool} {n : Stored} {key : String}

theorem get?_sorted_toDatum (spans : Bool) (n : Stored) (key : String) :
    (Json.sorted (n.toDatum spans)).get? key = ((n.toDatum spans).get? key).map Json.sorted := by
  obtain ⟨es, hes, hkeys⟩ := toDatum_eq_object spans n
  rw [hes, Json.get?_sorted hkeys]

/-- A field is found in sorted data, with what is in it sorted. -/
theorem field_sorted (h : (n.toDatum spans).get? key = some d) :
    (Json.sorted (n.toDatum spans)).get? key = some (Json.sorted d) := by
  rw [get?_sorted_toDatum, h, Option.map_some]

theorem listField_sorted (h : (n.toDatum spans).get? key = some (.array items)) :
    (Json.sorted (n.toDatum spans)).get? key = some (.array (Json.sortedAll items)) :=
  field_sorted h

/-- So is one with a default. -/
theorem defaultField_sorted {default : Datum} (hdefault : Json.sorted default = default)
    (h : ((n.toDatum spans).get? key).getD default = d) :
    ((Json.sorted (n.toDatum spans)).get? key).getD default = Json.sorted d := by
  rw [get?_sorted_toDatum, ← h]
  cases (n.toDatum spans).get? key with
  | none => exact hdefault.symm
  | some d => rfl

/-- The kind and the span of a document node are the same in sorted data. -/
theorem Labelled.sorted {k : StoredKind} {s : Span}
    (h : Labelled spans k (.ofSpan s) (n.toDatum spans)) :
    Labelled spans k (.ofSpan s) (Json.sorted (n.toDatum spans)) := by
  refine ⟨field_sorted h.kind, ?_⟩
  rw [get?_sorted_toDatum, h.span]
  cases spans <;> rfl

end

theorem sorted_ofAttrValue (value : AttrValue) :
    Json.sorted (ofAttrValue value) = ofAttrValue value := by
  cases value <;> rfl

/-- The data written for an attribute still holds it when sorted. -/
theorem holds_sorted_ofAttr (spans : Bool) (a : Attr) :
    Holds spans (ofAttr a) (Json.sorted ((ofAttr a).toDatum spans)) := by
  obtain ⟨name, value, s, directive, braces⟩ := a
  obtain ⟨hlabel, hname, hvalue, hdirective, hbraces⟩ :=
    holds_toDatum spans (ofAttr ⟨name, value, s, directive, braces⟩)
  refine ⟨hlabel.sorted, field_sorted hname, ?_, ?_, defaultField_sorted rfl hbraces⟩
  · exact sorted_ofAttrValue value ▸ field_sorted hvalue
  · cases directive with
    | none => exact defaultField_sorted rfl hdirective
    | some d => exact defaultField_sorted rfl hdirective

theorem holdsAll_sorted_ofAttrs (spans : Bool) (attrs : List Attr) :
    HoldsAll spans (attrs.map ofAttr) (Json.sortedAll (toData spans (attrs.map ofAttr))) := by
  induction attrs with
  | nil => trivial
  | cons a attrs ih => exact ⟨holds_sorted_ofAttr spans a, ih⟩

mutual

/-- **The data written for a document node still holds it when sorted.** -/
theorem holds_sorted_ofNode (spans : Bool) : (n : Node) →
    Holds spans (ofNode n) (Json.sorted ((ofNode n).toDatum spans))
  | .text value s => by
    obtain ⟨hlabel, hvalue⟩ := holds_toDatum spans (ofNode (.text value s))
    exact ⟨hlabel.sorted, field_sorted hvalue⟩
  | .expression code s incomplete => by
    obtain ⟨hlabel, hcode, hincomplete⟩ :=
      holds_toDatum spans (ofNode (.expression code s incomplete))
    exact ⟨hlabel.sorted, field_sorted hcode, defaultField_sorted rfl hincomplete⟩
  | .raw value s => by
    obtain ⟨hlabel, hvalue⟩ := holds_toDatum spans (ofNode (.raw value s))
    exact ⟨hlabel.sorted, field_sorted hvalue⟩
  | .frontmatter code s => by
    obtain ⟨hlabel, hcode⟩ := holds_toDatum spans (ofNode (.frontmatter code s))
    exact ⟨hlabel.sorted, field_sorted hcode⟩
  | .element tag attrs children selfClosing s => by
    obtain ⟨hlabel, htag, hclosing, -⟩ :=
      holds_toDatum spans (ofNode (.element tag attrs children selfClosing s))
    exact ⟨hlabel.sorted, field_sorted htag, field_sorted hclosing,
      ⟨_, listField_sorted rfl, holdsAll_sorted_ofAttrs spans attrs⟩,
      _, listField_sorted rfl, holdsAll_sorted_ofNodes spans children⟩
  | .component tag attrs children selfClosing s => by
    obtain ⟨hlabel, htag, hclosing, -⟩ :=
      holds_toDatum spans (ofNode (.component tag attrs children selfClosing s))
    exact ⟨hlabel.sorted, field_sorted htag, field_sorted hclosing,
      ⟨_, listField_sorted rfl, holdsAll_sorted_ofAttrs spans attrs⟩,
      _, listField_sorted rfl, holdsAll_sorted_ofNodes spans children⟩
  | .fragment children s => by
    obtain ⟨hlabel, -⟩ := holds_toDatum spans (ofNode (.fragment children s))
    exact ⟨hlabel.sorted, _, listField_sorted rfl, holdsAll_sorted_ofNodes spans children⟩

theorem holdsAll_sorted_ofNodes (spans : Bool) : (ns : List Node) →
    HoldsAll spans (ofNodes ns) (Json.sortedAll (toData spans (ofNodes ns)))
  | [] => trivial
  | n :: ns => ⟨holds_sorted_ofNode spans n, holdsAll_sorted_ofNodes spans ns⟩

end

/-- A style in which trees are stored is standard, if its indent is blank. -/
theorem isStandard_stored (h : ∀ unit ∈ indent, Json.Blank unit.toList) :
    (Json.Style.stored indent).IsStandard where
  itemMark := by
    cases indent with
    | none => exact ⟨[' '], by simp [Json.Blank, Json.isSpace], by simp [Json.Style.stored]⟩
    | some unit => exact ⟨[], by simp [Json.Blank], by simp [Json.Style.stored]⟩
  keyMark := ⟨[' '], by simp [Json.Blank, Json.isSpace], by simp [Json.Style.stored]⟩
  indent := h

/-- A document is read from its text, if JSON reads back what it writes. -/
theorem ofJson_of_readsBack {f : Fragment}
    (h : Json.ReadsBack (.stored indent) ((ofFragment f).toDatum true)) :
    ofJson (toJson indent true (ofFragment f)) = .ok (ofFragment f) := by
  have hread := (holds_sorted_ofNode true f.toNode).ofDatum
  rw [keptSpan, if_pos rfl, mapSpans_id] at hread
  rw [Json.ReadsBack, Json.Style.arranged, Json.Style.stored, if_pos rfl] at h
  rw [ofJson, toJson, Json.Style.stored, h]
  show (ofDatum (Json.sorted ((ofNode f.toNode).toDatum true)) >>= _) = _
  rw [hread]
  rfl

/-- **Storing a tree loses nothing.**  A stored tree is read back from its data, without its spans
if they were left out, and the tree of a document is all there in its stored form.  A document is
also read back from its text, with any indent, if the text is read as the data it was written for;
and this it is when the indent is blank, as it is for every width, and the data is storable and not
nested too deeply. -/
theorem stored_lossless :
    (∀ n : Stored, ofDatum (n.toDatum true) = .ok n ∧
      ofDatum (n.toDatum false) = .ok n.unplaced) ∧
    (∀ n : Node, (ofNode n).toNode? = some n) ∧ (∀ a : Attr, (ofAttr a).toAttr? = some a) ∧
    (∀ width unit, Json.indentUnit width = .ok unit → Json.Blank unit.toList) ∧
    ∀ (f : Fragment) (indent : Option String),
      let d := (ofFragment f).toDatum true
      (Json.ReadsBack (.stored indent) d →
        ofJson (toJson indent true (ofFragment f)) = .ok (ofFragment f)) ∧
      ((∀ unit ∈ indent, Json.Blank unit.toList) → Json.isStorable d = true →
        depthOf d ≤ Json.maxDepth → Json.ReadsBack (.stored indent) d) := by
  refine ⟨fun n => ⟨?_, ?_⟩, toNode?_ofNode, toAttr?_ofAttr, fun _ _ => Json.blank_indentUnit,
    fun f indent => ⟨ofJson_of_readsBack, fun hblank => ?_⟩⟩
  · have hread := (holds_toDatum true n).ofDatum
    rwa [keptSpan, if_pos rfl, mapSpans_id] at hread
  · exact (holds_toDatum false n).ofDatum
  · exact Json.readsBack_of_storable (isStandard_stored hblank)

theorem stored_lossless_paragraph :
    let span : Span := ⟨⟨2, 1, 12⟩, ⟨2, 31, 42⟩⟩
    let f : Fragment := ⟨[.frontmatter "a = 1\n" Span.empty,
      .element "p"
        [⟨"class", .text "café", span, none, false⟩, ⟨"hidden", .flag true, span, none, false⟩]
        [.expression "a" span true, .text " \"𝄞\"" span] false span], span⟩
    let d := (ofFragment f).toDatum true
    Json.isStorable d = true ∧ depthOf d ≤ Json.maxDepth ∧
      Json.indentUnit 2 = .ok "  " ∧
      ofJson (toJson (some "  ") true (ofFragment f)) = .ok (ofFragment f) := by
  intro span f d
  have hstorable : Json.isStorable d = true := by decide +kernel
  have hdepth : depthOf d ≤ Json.maxDepth := by decide +kernel
  have hunit : Json.indentUnit 2 = .ok "  " := by decide
  obtain ⟨-, -, -, hblank, htext⟩ := stored_lossless
  obtain ⟨hread, hback⟩ := htext f (some "  ")
  have hindent : ∀ unit ∈ some "  ", Json.Blank unit.toList := by simpa using hblank 2 _ hunit
  exact ⟨hstorable, hdepth, hunit, hread (hback hindent hstorable hdepth)⟩

end Stored
end Atoll
