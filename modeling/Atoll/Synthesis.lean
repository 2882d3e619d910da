import Atoll.Code
import Atoll.Datum.Literal
import Atoll.Script.Declaration
import Atoll.Synthesis.Outline

/-!
# Render modules

A document becomes a module that holds its template as data, its imports, its components and a
function that executes its script and renders the template.  A document that lacks a part it needs
becomes a stub.
-/

set_option autoImplicit false

namespace Atoll
namespace Synthesis

open Code
open SourceMap (textWriter mappedWriter)
open Text

/-- How a module is made.  `source` is the text of the document, in which statements are looked
up. -/
structure Options where
  filename : String
  dev : Bool
  pretty : Bool
  sourceMap : Bool
  source : Option String
  deriving Repr, Inhabited

/-- The options that hold unless something else is asked for. -/
def Options.default : Options :=
  ⟨"input.islet", false, false, false, none⟩

/-- A module: its text, its source map if one was wanted, and whether it is a stub. -/
structure Result where
  code : String
  map : Option Datum
  isStub : Bool
  deriving Repr, Inhabited

/-- Whether the code of a module can be loaded: it must not have a NUL in it. -/
def Result.isLoadable (r : Result) : Bool :=
  !r.code.toList.contains '\x00'

/-- What is said of a document that lacks a part. -/
def failureText (message filename : String) : String :=
  filename ++ ": " ++ message

/-- The file name of a module. -/
def moduleName (filename : String) : String :=
  filename ++ ".py"

/-! ## Places of statements -/

/-- The offset of the first occurrence from an offset on. -/
def findFrom? (needle s : List Char) (offset : Nat) : Option Nat :=
  if s.length < offset then none else (find? needle (s.drop offset)).map (· + offset)

/-- The places of statements that are looked up one behind the other.  A statement is found by its
first line; one that is not there is passed over. -/
def locateFrom (s : List Char) (offset : Nat) : List String → List (String × Position)
  | [] => []
  | statement :: rest =>
    let line := statement.toList.takeWhile (· != '\n')
    match findFrom? line s offset with
    | some i => (statement, Position.ofOffset s i) :: locateFrom s (i + line.length) rest
    | none => locateFrom s offset rest

/-- The places of the statements of a script in its document, behind the three characters of the
opening fence. -/
def statementPlaces (source code : String) : List (String × Position) :=
  let s := unifyNewlines source.toList
  match findFrom? code.toList s 3 with
  | some offset => locateFrom s offset (Script.statements code)
  | none => []

/-- The place of a statement: where it was found first, and else the start of the script, if that is
known. -/
def locate (outline : Outline) (source : Option String) (statement : String) : Option Position :=
  match outline.script with
  | none => none
  | some (code, start) =>
    let places := match source with
      | some source => statementPlaces source code
      | none => []
    (places.lookup statement).orElse fun _ => start

/-- Whether every statement of a script that its module mentions has a place. -/
def allPlaced (outline : Outline) (source : Option String) : Bool :=
  match outline.script with
  | none => true
  | some (code, _) =>
    let parts := Script.parts code
    let mentioned := parts.imports ++ parts.statements.filter fun s => (Script.plain? s).isSome
    mentioned.all fun statement => (locate outline source statement).isSome

/-! ## The module -/

/-- A statement of one line with no place of its own. -/
def line (text : String) : Stmt :=
  .line text none

/-- What a module says about itself. -/
def metadata (o : Options) (hydrated : Bool) : Stmt :=
  line ("metadata = " ++ Datum.literal (.object [("filename", .string o.filename),
    ("dev", .bool o.dev), ("hasClientDirectives", .bool hydrated)]))

/-- The imports of a script, one on a line. -/
def importTable (place : String → Option Position) (imports : List String) : List Stmt :=
  if imports.isEmpty then []
  else
    let rows := imports.map fun statement => .line (quoted statement ++ ",") (place statement)
    [.comment "Frontmatter imports, resolved by the host through \x60resolve\x60",
      .block "IMPORTS = (" rows (some ")") none, .blank]

/-- The entry of a component.  It comes from the first import that has its path in it. -/
def componentEntry (place : String → Option Position) (imports : List String)
    (c : ComponentRef) : Stmt :=
  let value := call "runtime.ComponentRef" [quoted c.name, quoted c.path, quoted c.kind] []
  let origin := imports.find? fun statement => occursIn c.path.toList statement.toList
  .line (quoted c.name ++ ": " ++ value ++ ",") (origin.bind place)

/-- The components of a script. -/
def componentTable (place : String → Option Position) (parts : Script.Parts) : List Stmt :=
  if parts.components.isEmpty then [line "components = \x7b\x7d"]
  else
    [.comment "Component registry",
      .block "components = \x7b" (parts.components.map (componentEntry place parts.imports))
        (some "\x7d") none]

/-- The statement that executes a statement of the script, if there is anything to execute. -/
def executeStmt? (place : String → Option Position) (statement : String) : Option Stmt :=
  (Script.plain? statement).map fun text =>
    .line ("scope.execute(" ++ quoted text ++ ")") (place statement)

/-- The body of the function that renders. -/
def renderBody (o : Options) (place : String → Option Position) (parts : Script.Parts)
    (start : Position) : List Stmt :=
  let render := call "runtime.render_template" ["template", "scope.bindings"]
    [("components", "components"), ("resolve", "resolve"), ("slots", "context.slots")]
  let html := call "runtime.serialize_html" ["tree"]
    [("pretty_print", Datum.literal (.bool o.pretty))]
  [line "context = runtime.RenderContext.create(props, slots=slots)",
    line "scope = runtime.Scope(context.names())"]
    ++ parts.statements.filterMap (executeStmt? place)
    ++ [.line ("tree = await " ++ render) (some start),
      line ("return \x7b'html': " ++ html ++ "\x7d")]

/-- The head of the function that renders. -/
def renderHead : String :=
  "async def render(props=None, *, resolve=None, slots=None):"

/-- The module of a document. -/
def moduleOf (outline : Outline) (o : Options) : Module :=
  let parts := match outline.script with
    | some (code, _) => Script.parts code
    | none => ⟨[], [], []⟩
  let place := locate outline o.source
  let template := if o.pretty then outline.template.layout else outline.template.literal
  let body := [line "from islet import runtime", .blank,
      line ("FILENAME = " ++ quoted o.filename), .blank, metadata o outline.hydrated, .blank]
    ++ importTable place parts.imports
    ++ componentTable place parts
    ++ [.blank, .line ("template = runtime.load_template(" ++ template ++ ")") (some outline.start),
      .blank, .blank, .block renderHead (renderBody o place parts outline.start) none none]
    ++ (if o.dev then [.blank, .blank, .comment "Live-reload glue",
        line "hot = runtime.HotContext.register(FILENAME)"] else [])
  ⟨body, some ("Render module generated from " ++ o.filename ++ ".")⟩

/-- The module of a document that lacks a part. -/
def stub (o : Options) : Module :=
  ⟨[metadata o false, .blank, .blank,
      .block renderHead [line "return \x7b'html': ''\x7d"] none none],
    some ("Render module stub for " ++ o.filename ++ ": synthesis failed.")⟩

/-- A module laid out, with its source map if one is wanted. -/
def finish (m : Module) (o : Options) : Result :=
  if o.sourceMap then
    let lines := render mappedWriter m standardUnit
    ⟨mappedWriter.value lines,
      some (SourceMap.toDatum lines o.filename o.source (moduleName o.filename)), false⟩
  else ⟨textWriter.value (render textWriter m standardUnit), none, false⟩

/-- The render module of a document. -/
def synthesize (f : Markup.Fragment) (o : Options) : Result :=
  finish (moduleOf (.ofFragment f) o) o

/-- The parts of a stored document from which its module can be made.  With a source map, every
statement needs a place. -/
def usableOutline? (n : Stored) (o : Options) : Option Outline := do
  let outline ← Outline.ofStored? ⟨o.sourceMap, o.source.isSome⟩ n
  if o.sourceMap && !allPlaced outline o.source then none else some outline

/-- The render module of a stored document, a stub if it lacks a part. -/
def synthesizeStored (n : Stored) (o : Options) : Result :=
  match usableOutline? n o with
  | some outline => finish (moduleOf outline o) o
  | none => ⟨textWriter.value (render textWriter (stub o) standardUnit), none, true⟩

end Synthesis
end Atoll
