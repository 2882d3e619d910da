import Atoll.Text.Search

/-!
# The switches of the command line

Every switch has names, may take a value, and is described in the help text.  The usage and help
texts are laid out from the table of switches.
-/

set_option autoImplicit false

namespace Atoll
namespace Command

/-- What can be asked for on the command line. -/
inductive Switch where
  | help
  | output
  | module
  | pretty
  | evaluate
  | noEscape
  | dev
  | sourceMap
  | stream
  | chunkSize
  | config
  | debug
  | verbose
  deriving DecidableEq, Repr, Inhabited

namespace Switch

/-- All switches, in the order in which they are described. -/
def all : List Switch :=
  [.help, .output, .module, .pretty, .evaluate, .noEscape, .dev, .sourceMap, .stream, .chunkSize,
    .config, .debug, .verbose]

/-- The names of a switch, a short one first if there is one. -/
def names : Switch → List String
  | .help => ["-h", "--help"]
  | .output => ["-o", "--output"]
  | .module => ["--module"]
  | .pretty => ["--pretty"]
  | .evaluate => ["--evaluate"]
  | .noEscape => ["--no-escape"]
  | .dev => ["--dev"]
  | .sourceMap => ["--source-map"]
  | .stream => ["--stream"]
  | .chunkSize => ["--chunk-size"]
  | .config => ["--config"]
  | .debug => ["--debug"]
  | .verbose => ["-v", "--verbose"]

/-- What stands for the value of a switch that takes one. -/
def valueName? : Switch → Option String
  | .output => some "OUTPUT"
  | .chunkSize => some "N"
  | .config => some "FILE"
  | _ => none

/-- Whether a switch takes a value. -/
def takesValue (s : Switch) : Bool :=
  s.valueName?.isSome

/-- What a switch is for. -/
def purpose : Switch → String
  | .help => "show this help message and exit"
  | .output => "Output file (default: stdout)"
  | .module => "Emit a Python render module instead of markup"
  | .pretty => "Pretty-print the output"
  | .evaluate => "Evaluate expressions against frontmatter declarations"
  | .noEscape => "Do not escape text content"
  | .dev => "Add live-reload glue to render modules"
  | .sourceMap => "Write a source map next to the render module"
  | .stream => "Write markup in chunks"
  | .chunkSize => "Chunk size in characters for --stream (default: 8192)"
  | .config => "Config file (default: auto-discover islet.toml)"
  | .debug => "Dump AST to stderr"
  | .verbose => "Log progress to stderr (repeat for debug output)"

/-- Every name with its switch. -/
def byName : List (String × Switch) :=
  all.flatMap fun s => s.names.map fun name => (name, s)

/-- The switch with a name. -/
def ofName? (name : String) : Option Switch :=
  byName.lookup name

/-- The names of a switch as a message shows them. -/
def title (s : Switch) : String :=
  "/".intercalate s.names

/-- A name of a switch, with what stands for its value. -/
def withValue (s : Switch) (name : String) : String :=
  match s.valueName? with
  | some value => name ++ " " ++ value
  | none => name

end Switch

/-! ## Usage and help -/

/-- The name of the program. -/
def programName : String :=
  "islet"

/-- The name of the one argument that is not a switch. -/
def inputName : String :=
  "input"

/-- The width of a line. -/
def lineWidth : Nat :=
  78

/-- The column at which descriptions start. -/
def purposeColumn : Nat :=
  24

/-- Parts set one behind the other on lines of the given width; `line` is the line so far, and the
next ones start with `margin`. -/
def fill (width : Nat) (margin line : String) : List String → List String
  | [] => [line]
  | part :: rest =>
    if line.length + 1 + part.length ≤ width then fill width margin (line ++ " " ++ part) rest
    else line :: fill width margin (margin ++ " " ++ part) rest

/-- A switch in brackets, as the usage text shows it. -/
def usagePart (s : Switch) : String :=
  "[" ++ s.withValue (s.names.headD "") ++ "]"

/-- The usage text. -/
def usage : String :=
  let lead := "usage: " ++ programName
  let margin := Text.times lead.length " "
  let lines := fill lineWidth margin lead (Switch.all.map usagePart)
  "\n".intercalate (lines ++ [margin ++ " " ++ inputName]) ++ "\n"

/-- A line of the help text.  A name that is too long for its column has a line of its own. -/
def helpLine (name purpose : String) : String :=
  let lead := "  " ++ name
  if lead.length + 2 ≤ purposeColumn then
    lead ++ Text.times (purposeColumn - lead.length) " " ++ purpose ++ "\n"
  else lead ++ "\n" ++ Text.times purposeColumn " " ++ purpose ++ "\n"

/-- The lines of the help text on a switch. -/
def switchHelp (s : Switch) : String :=
  helpLine (", ".intercalate (s.names.map s.withValue)) s.purpose

/-- The help text. -/
def help : String :=
  usage ++ "\nCompile islet templates to markup or render modules\n"
    ++ "\npositional arguments:\n" ++ helpLine inputName "Input .islet file"
    ++ "\noptions:\n" ++ String.join (Switch.all.map switchHelp)

end Command
end Atoll
