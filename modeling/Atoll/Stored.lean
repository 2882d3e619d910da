import Atoll.Datum
import Atoll.Markup.Node
import Atoll.Trouble

/-!
# Stored trees

A tree as it is kept in data.  Stored nodes are looser than document nodes: a field may hold any
data, coordinates may be anything, and attributes and nodes are not told apart in lists.  Every
document tree has a stored form (`Stored.ofNode`), and a stored tree whose fields are of the right
kind is a document tree (`Stored.toNode?`).
-/

set_option autoImplicit false

namespace Atoll

open Markup

/-- The kinds of stored nodes. -/
inductive StoredKind where
  | fragment
  | frontmatter
  | element
  | component
  | text
  | expression
  | rawHTML
  | attr
  deriving DecidableEq, Repr, Inhabited

namespace StoredKind

/-- The name under which a kind is stored. -/
def name : StoredKind → String
  | .fragment => "Fragment"
  | .frontmatter => "Frontmatter"
  | .element => "Element"
  | .component => "Component"
  | .text => "Text"
  | .expression => "Expression"
  | .rawHTML => "RawHTML"
  | .attr => "Attr"

/-- All kinds. -/
def all : List StoredKind :=
  [.fragment, .frontmatter, .element, .component, .text, .expression, .rawHTML, .attr]

/-- The kind with a name. -/
def ofName? (name : String) : Option StoredKind :=
  all.find? (·.name == name)

end StoredKind

/-- A stored position: three pieces of data, in numbers when it is a real position. -/
structure StoredPosition where
  line : Datum
  column : Datum
  offset : Datum
  deriving Repr, Inhabited

/-- A stored span. -/
structure StoredSpan where
  start : StoredPosition
  stop : StoredPosition
  deriving Repr, Inhabited

namespace StoredPosition

/-- The stored form of a position. -/
def ofPosition (p : Position) : StoredPosition :=
  ⟨.int p.line, .int p.column, .int p.offset⟩

/-- The coordinates as one piece of data. -/
def toDatum (p : StoredPosition) : Datum :=
  .array [p.line, p.column, p.offset]

/-- The position, when its coordinates are integers. -/
def toPosition? (p : StoredPosition) : Option Position :=
  match p.line, p.column, p.offset with
  | .int line, .int column, .int offset => some ⟨line, column, offset⟩
  | _, _, _ => none

end StoredPosition

namespace StoredSpan

/-- The stored form of a span. -/
def ofSpan (s : Span) : StoredSpan :=
  ⟨.ofPosition s.start, .ofPosition s.stop⟩

/-- The empty span at the beginning of the text. -/
def empty : StoredSpan :=
  ofSpan Span.empty

/-- The span as one piece of data. -/
def toDatum (s : StoredSpan) : Datum :=
  .array [s.start.toDatum, s.stop.toDatum]

/-- The span, when its coordinates are integers. -/
def toSpan? (s : StoredSpan) : Option Span :=
  match s.start.toPosition?, s.stop.toPosition? with
  | some start, some stop => some ⟨start, stop⟩
  | _, _ => none

end StoredSpan

/-- A stored node or attribute.  Elements and components have the same fields. -/
inductive Stored where
  | fragment (children : List Stored) (span : StoredSpan)
  | frontmatter (code : Datum) (span : StoredSpan)
  | tagged (component : Bool) (tag : Datum) (attrs children : List Stored) (selfClosing : Datum)
      (span : StoredSpan)
  | text (value : Datum) (span : StoredSpan)
  | expression (code : Datum) (span : StoredSpan) (incomplete : Datum)
  | rawHTML (value : Datum) (span : StoredSpan)
  | attr (name value : Datum) (span : StoredSpan) (directive braces : Datum)
  deriving Repr, Inhabited

namespace Stored

/-- The kind of a stored node. -/
def kind : Stored → StoredKind
  | .fragment _ _ => .fragment
  | .frontmatter _ _ => .frontmatter
  | .tagged component _ _ _ _ _ => if component then .component else .element
  | .text _ _ => .text
  | .expression _ _ _ => .expression
  | .rawHTML _ _ => .rawHTML
  | .attr _ _ _ _ _ => .attr

/-! ## Data -/

/-- A field, left out where the data is its default. -/
def optionalField (name : String) (d default : Datum) : List (String × Datum) :=
  if d == default then [] else [(name, d)]

/-- The span field, left out where spans are not wanted. -/
def spanField (spans : Bool) (s : StoredSpan) : List (String × Datum) :=
  if spans then [("span", s.toDatum)] else []

/-- The kind field. -/
def kindField (k : StoredKind) : String × Datum :=
  ("_type", .string k.name)

mutual

/-- The stored node as data, with or without its spans. -/
def toDatum (spans : Bool) : Stored → Datum
  | .fragment children s =>
    .object (kindField .fragment :: ("children", .array (toData spans children))
      :: spanField spans s)
  | .frontmatter code s => .object (kindField .frontmatter :: ("code", code) :: spanField spans s)
  | .tagged component tag attrs children selfClosing s =>
    .object (kindField (if component then .component else .element) :: ("tag", tag)
      :: ("attrs", .array (toData spans attrs)) :: ("children", .array (toData spans children))
      :: ("self_closing", selfClosing) :: spanField spans s)
  | .text value s => .object (kindField .text :: ("value", value) :: spanField spans s)
  | .expression code s incomplete =>
    .object (kindField .expression :: ("code", code) :: spanField spans s
      ++ optionalField "incomplete" incomplete (.bool false))
  | .rawHTML value s => .object (kindField .rawHTML :: ("value", value) :: spanField spans s)
  | .attr name value s directive braces =>
    .object (kindField .attr :: ("name", name) :: ("value", value) :: spanField spans s
      ++ optionalField "directive" directive .null
      ++ optionalField "expression" braces (.bool false))

/-- A list of stored nodes as data. -/
def toData (spans : Bool) : List Stored → List Datum
  | [] => []
  | n :: ns => toDatum spans n :: toData spans ns

end

/-! ## Document trees -/

/-- The stored form of an attribute value. -/
def ofAttrValue : AttrValue → Datum
  | .text s => .string s
  | .flag b => .bool b

/-- The stored form of an attribute. -/
def ofAttr (a : Attr) : Stored :=
  .attr (.string a.name) (ofAttrValue a.value) (.ofSpan a.span)
    (match a.directive with
      | some d => .string d
      | none => .null)
    (.bool a.expression)

mutual

/-- The stored form of a node. -/
def ofNode : Node → Stored
  | .text value s => .text (.string value) (.ofSpan s)
  | .expression code s incomplete => .expression (.string code) (.ofSpan s) (.bool incomplete)
  | .raw value s => .rawHTML (.string value) (.ofSpan s)
  | .frontmatter code s => .frontmatter (.string code) (.ofSpan s)
  | .element tag attrs children selfClosing s =>
    .tagged false (.string tag) (attrs.map ofAttr) (ofNodes children) (.bool selfClosing)
      (.ofSpan s)
  | .component tag attrs children selfClosing s =>
    .tagged true (.string tag) (attrs.map ofAttr) (ofNodes children) (.bool selfClosing)
      (.ofSpan s)
  | .fragment children s => .fragment (ofNodes children) (.ofSpan s)

/-- The stored form of a list of nodes. -/
def ofNodes : List Node → List Stored
  | [] => []
  | n :: ns => ofNode n :: ofNodes ns

end

/-- The stored form of a document. -/
def ofFragment (f : Fragment) : Stored :=
  ofNode f.toNode

/-- The text in a field. -/
def text? : Datum → Option String
  | .string s => some s
  | _ => none

/-- The flag in a field. -/
def flag? : Datum → Option Bool
  | .bool b => some b
  | _ => none

/-- The span of a node; coordinates that are no integers do not show in a document and count as
none. -/
def spanOf (s : StoredSpan) : Span :=
  s.toSpan?.getD Span.empty

/-- The attribute that a stored attribute is. -/
def toAttr? : Stored → Option Attr
  | .attr name value s directive braces => do
    let value ← match value with
      | .string t => some (.text t)
      | .bool b => some (.flag b)
      | _ => none
    let directive ← match directive with
      | .null => some none
      | .string t => some (some t)
      | _ => none
    some ⟨← text? name, value, spanOf s, directive, ← flag? braces⟩
  | _ => none

mutual

/-- The document node that a stored node is, if all its fields are of the right kind. -/
def toNode? : Stored → Option Node
  | .fragment children s => do some (.fragment (← toNodes? children) (spanOf s))
  | .frontmatter code s => do some (.frontmatter (← text? code) (spanOf s))
  | .tagged component tag attrs children selfClosing s => do
    let tag ← text? tag
    let attrs ← attrs.mapM toAttr?
    let children ← toNodes? children
    let selfClosing ← flag? selfClosing
    some (if component then .component tag attrs children selfClosing (spanOf s)
      else .element tag attrs children selfClosing (spanOf s))
  | .text value s => do some (.text (← text? value) (spanOf s))
  | .expression code s incomplete => do
    some (.expression (← text? code) (spanOf s) (← flag? incomplete))
  | .rawHTML value s => do some (.raw (← text? value) (spanOf s))
  | .attr _ _ _ _ _ => none

/-- The document nodes that a list of stored nodes is. -/
def toNodes? : List Stored → Option (List Node)
  | [] => some []
  | n :: ns => do some ((← toNode? n) :: (← toNodes? ns))

end

/-- The document that a stored document is, if all its fields are of the right kind. -/
def toFragment? (n : Stored) : Option Fragment :=
  match n.toNode? with
  | some (.fragment children span) => some ⟨children, span⟩
  | _ => none

/-! ## Looking around -/

/-- The attributes of a stored node. -/
def attrs : Stored → List Stored
  | .tagged _ _ attrs _ _ _ => attrs
  | _ => []

/-- The nodes below a stored node. -/
def children : Stored → List Stored
  | .fragment children _ => children
  | .tagged _ _ _ children _ _ => children
  | _ => []

mutual

/-- A stored node and all nodes below it, in document order. -/
def walk : Stored → List Stored
  | .fragment children s => .fragment children s :: walkAll children
  | .tagged component tag attrs children selfClosing s =>
    .tagged component tag attrs children selfClosing s :: walkAll children
  | n => [n]

/-- The stored nodes of a list and all nodes below them, in document order. -/
def walkAll : List Stored → List Stored
  | [] => []
  | n :: ns => walk n ++ walkAll ns

end

/-- Whether a stored node is a script. -/
def isScript : Stored → Bool
  | .frontmatter _ _ => true
  | _ => false

/-- The script of a stored document, which is its first node if it has one. -/
def script? (n : Stored) : Option (Datum × StoredSpan) :=
  match n.children with
  | .frontmatter code span :: _ => some (code, span)
  | _ => none

/-- The stored document without its script. -/
def template : Stored → Stored
  | .fragment children span => .fragment (children.filter (!isScript ·)) span
  | n => n

/-- Whether data counts as true where a flag is wanted. -/
def isSet : Datum → Bool
  | .null => false
  | .bool b => b
  | .int n => n != 0
  | .float x => x != 0.0
  | .string s => s != ""
  | .moment _ => true
  | .array items => !items.isEmpty
  | .object entries => !entries.isEmpty

/-- The expression in a brace value; a value that is no text has an empty one. -/
def braceCode (value braces : Datum) : String :=
  match value with
  | .string s => (Attr.mk "" (.text s) Span.empty none (isSet braces)).code
  | _ => ""

/-- The first directive among attributes.  Something that is no attribute cannot be asked. -/
def directiveAmong : List Stored → Except Trouble (Option Stored)
  | [] => .ok none
  | .attr _ _ _ .null _ :: rest => directiveAmong rest
  | .attr name value span directive braces :: _ =>
    .ok (some (.attr name value span directive braces))
  | _ :: _ => .error .noPart

/-- Whether some component among stored nodes asks for hydration. -/
def anyHydrated : List Stored → Except Trouble Bool
  | [] => .ok false
  | .tagged true _ attrs _ _ _ :: rest => do
    if (← directiveAmong attrs).isSome then .ok true else anyHydrated rest
  | _ :: rest => anyHydrated rest

end Stored

end Atoll
