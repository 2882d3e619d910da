import Atoll.Datum.Json
import Atoll.Datum.Literal
import Atoll.Stored

/-!
# Reading stored trees

`Stored.ofDatum` makes a stored node of data.  A field may hold anything; what has to be there is
the kind, the fields without a default, lists of nodes where nodes are listed, and two triples where
a span is given.
-/

set_option autoImplicit false

namespace Atoll
namespace Stored

/-- What a document is needed for: to be read from a text, to be rendered as a template, to be built
or made a module of. -/
inductive Purpose where
  | text | template | root
  deriving DecidableEq, Repr

/-- How a document is asked for. -/
def Purpose.demand : Purpose → String
  | .text => "Expected Fragment"
  | .template => "embedded template must be a Fragment"
  | .root => "expected a Fragment root"

/-- Why data is not a stored tree, or a stored tree not a document. -/
inductive Error where
  /-- A node is not an object. -/
  | notAnObject
  /-- A node does not say its kind. -/
  | missingKind
  /-- A node names its kind by a list or an object. -/
  | kindShape
  /-- A node names a kind that there is not. -/
  | unknownKind (kind : Datum)
  /-- A field that nothing stands in for is missing. -/
  | missingField
  /-- A field that lists nodes holds no list. -/
  | notAList
  /-- A span has not got two ends. -/
  | spanEnds
  /-- A span or one of its ends has the wrong shape. -/
  | spanShape
  /-- The root is not a document. -/
  | notADocument (purpose : Purpose) (kind : StoredKind)
  /-- The text is not JSON. -/
  | text (e : Json.Error)
  deriving Repr

namespace Error

/-- The message of the errors that have one. -/
def message? : Error → Option String
  | .missingKind => some "Missing '_type' field in serialized node"
  | .unknownKind kind => some ("Unknown node type: " ++ kind.literal)
  | .notADocument purpose kind => some (purpose.demand ++ ", got " ++ kind.name)
  | _ => none

end Error

/-- The parts of data that can be gone through one by one: the items of a list, the characters of a
text, the keys of an object. -/
def parts? : Datum → Option (List Datum)
  | .array items => some items
  | .string s => some (s.toList.map fun c => .string c.toString)
  | .object entries => some (entries.map fun (k, _) => .string k)
  | _ => none

/-- A position from three pieces of data. -/
def readPosition (d : Datum) : Except Error StoredPosition :=
  match parts? d with
  | some [line, column, offset] => .ok ⟨line, column, offset⟩
  | _ => .error .spanShape

/-- The span of a node; a node without one has the empty span. -/
def readSpan (d : Option Datum) : Except Error StoredSpan :=
  match d with
  | none => .ok .empty
  | some .null => .ok .empty
  | some d =>
    match parts? d with
    | some [start, stop] => do .ok ⟨← readPosition start, ← readPosition stop⟩
    | some _ => .error .spanEnds
    | none => .error .spanShape

/-- The kind of a node. -/
def readKind (d : Datum) : Except Error StoredKind :=
  match d with
  | .object entries =>
    match entries.lookup "_type" with
    | none => .error .missingKind
    | some .null => .error .missingKind
    | some (.string name) =>
      match StoredKind.ofName? name with
      | some k => .ok k
      | none => .error (.unknownKind (.string name))
    | some (.array _) => .error .kindShape
    | some (.object _) => .error .kindShape
    | some other => .error (.unknownKind other)
  | _ => .error .notAnObject

/-- A field that has to be there. -/
def required (d : Option Datum) : Except Error Datum :=
  match d with
  | some d => .ok d
  | none => .error .missingField

/-- A list of nodes from a field that may be missing, its nodes made by `node`. -/
def readList (node : Datum → Except Error Stored) (d : Option Datum) :
    Except Error (Option (List Stored)) :=
  match d with
  | none => .ok none
  | some d =>
    match parts? d with
    | some items => do .ok (some (← items.mapM node))
    | none => .error .notAList

/-- A list of nodes that has to be there. -/
def requiredList (nodes : Option (List Stored)) : Except Error (List Stored) :=
  match nodes with
  | some nodes => .ok nodes
  | none => .error .missingField

/-- One node, the nodes below it made by `node`.  Lists and spans are looked at before missing
fields are. -/
def readNode (node : Datum → Except Error Stored) (d : Datum) : Except Error Stored := do
  match ← readKind d with
  | .fragment =>
    let children ← readList node (d.get? "children")
    let span ← readSpan (d.get? "span")
    .ok (.fragment (← requiredList children) span)
  | .frontmatter =>
    let span ← readSpan (d.get? "span")
    .ok (.frontmatter (← required (d.get? "code")) span)
  | .element => tagged false
  | .component => tagged true
  | .text =>
    let span ← readSpan (d.get? "span")
    .ok (.text (← required (d.get? "value")) span)
  | .expression =>
    let span ← readSpan (d.get? "span")
    let incomplete := (d.get? "incomplete").getD (.bool false)
    .ok (.expression (← required (d.get? "code")) span incomplete)
  | .rawHTML =>
    let span ← readSpan (d.get? "span")
    .ok (.rawHTML (← required (d.get? "value")) span)
  | .attr =>
    let span ← readSpan (d.get? "span")
    let directive := (d.get? "directive").getD .null
    let braces := (d.get? "expression").getD (.bool false)
    .ok (.attr (← required (d.get? "name")) (← required (d.get? "value")) span directive braces)
where
  tagged (component : Bool) : Except Error Stored := do
    let attrs ← readList node (d.get? "attrs")
    let children ← readList node (d.get? "children")
    let span ← readSpan (d.get? "span")
    let tag ← required (d.get? "tag")
    let selfClosing ← required (d.get? "self_closing")
    .ok (.tagged component tag (← requiredList attrs) (← requiredList children) selfClosing span)

/-- The stored node that data is, nested at most `depth` deep. -/
def ofDatumWithin : Nat → Datum → Except Error Stored
  | 0, _ => .error (.text .tooDeep)
  | depth + 1, d => readNode (ofDatumWithin depth) d

mutual

/-- How deeply data is nested. -/
def depthOf : Datum → Nat
  | .array items => depthAll items + 1
  | .object entries => depthEntries entries + 1
  | _ => 1

/-- How deeply the items of a list are nested. -/
def depthAll : List Datum → Nat
  | [] => 0
  | d :: ds => max (depthOf d) (depthAll ds)

/-- How deeply the values of a list of entries are nested. -/
def depthEntries : List (String × Datum) → Nat
  | [] => 0
  | (_, d) :: ds => max (depthOf d) (depthEntries ds)

end

/-- The stored node that data is. -/
def ofDatum (d : Datum) : Except Error Stored :=
  ofDatumWithin (depthOf d) d

/-! ## Documents -/

/-- A stored node that is a document. -/
def asDocument (purpose : Purpose) (n : Stored) : Except Error Stored :=
  if n.kind == .fragment then .ok n else .error (.notADocument purpose n.kind)

/-- The template that data is. -/
def ofTemplate (d : Datum) : Except Error Stored :=
  ofDatum d >>= asDocument .template

/-! ## Text -/

/-- A stored tree as JSON: sorted keys, ASCII only. -/
def toJson (indent : Option String) (spans : Bool) (n : Stored) : String :=
  Json.write (.stored indent) (n.toDatum spans)

/-- The document that a JSON text holds. -/
def ofJson (text : String) : Except Error Stored :=
  match Json.read text with
  | .error e => .error (.text e)
  | .ok d => ofDatum d >>= asDocument .text

end Stored
end Atoll
