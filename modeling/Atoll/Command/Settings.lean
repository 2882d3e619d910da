import Atoll.Build.Stream
import Atoll.Command.Arguments
import Atoll.Datum.Literal
import Atoll.Disk
import Atoll.Toml

/-!
# Settings of a run

The command line comes before the configuration file, which comes before the defaults.  An entry of
the file that the command line makes moot is not looked at, and so can be of any kind.
-/

set_option autoImplicit false

namespace Atoll
namespace Command

open Atoll.Expr (Fault)

/-- The kinds of configuration values. -/
inductive Kind where
  | flag
  | integer
  | text
  | table
  deriving DecidableEq, Repr

namespace Kind

/-- The word for a kind. -/
def word : Kind → String
  | .flag => "bool"
  | .integer => "int"
  | .text => "str"
  | .table => "dict"

end Kind

/-- What is wrong with the configuration. -/
inductive ConfigError where
  /-- The file is not TOML. -/
  | malformed
  /-- A section is not a table. -/
  | notATable (table : String)
  /-- An entry is of another kind than expected. -/
  | wrongKind (table key : String) (expected : Kind) (found : Datum)
  /-- The chunk size is not positive. -/
  | badChunkSize (n : Int)
  deriving Repr

namespace ConfigError

/-- The error in words. -/
def message : ConfigError → String
  | .malformed => "invalid config file"
  | .notATable table => "config [" ++ table ++ "] must be a table"
  | .wrongKind table key expected found =>
    "config [" ++ table ++ "] " ++ key ++ " must be of type " ++ expected.word ++ ", got "
      ++ found.literal
  | .badChunkSize n => "chunk size must be positive, got " ++ toString n

/-- Whether the error can be put in words: what was found must not have too long integers in it. -/
def isSayable : ConfigError → Bool
  | .wrongKind _ _ _ found => !found.hasLongInteger
  | _ => true

end ConfigError

/-- What a run cannot recover from. -/
inductive Crash where
  /-- A file does not hold UTF-8. -/
  | notUtf8
  /-- The configuration has an integer with too many digits to be read or shown. -/
  | longInteger
  /-- The configuration is nested too deeply. -/
  | tooDeep
  /-- The output path has no name to which an ending can be added. -/
  | nameless
  /-- The chunk size is asked for without a number. -/
  | numberless
  /-- A file cannot be looked up or written. -/
  | refused (refusal : Refusal)
  /-- An expression ended the build. -/
  | fault (fault : Fault)
  deriving Repr

/-- Why there are no settings. -/
inductive Unsettled where
  | config (e : ConfigError)
  | crash (c : Crash)
  deriving Repr

/-- A configuration error ends the run with a message, if it can be put in words. -/
def Unsettled.ofConfig (e : ConfigError) : Unsettled :=
  if e.isSayable then .config e else .crash .longInteger

/-- The settings of a run. -/
structure Settings where
  input : Path
  output : Option Path
  module : Bool
  build : Build.Options
  streaming : Bool
  dev : Bool
  sourceMap : Bool
  debug : Bool
  verbosity : Nat
  deriving Repr

/-! ## The configuration file -/

/-- A text that is not empty. -/
def nonEmpty? (s : Option String) : Option String :=
  match s with
  | some text => if text.isEmpty then none else some text
  | none => none

/-- The name of the configuration file beside an input. -/
def configName : String :=
  "islet.toml"

/-- Where the configuration is looked for. -/
def configPath (input : Path) (r : Request) : Path :=
  match nonEmpty? r.config with
  | some text => .ofText text
  | none => input.parent.child configName

/-- The configuration, empty where there is no file.  A path that is too long cannot be asked
about. -/
def readConfig (disk : Disk) (p : Path) : Except Unsettled Toml.Entries :=
  match disk p with
  | .tooLong => .error (.crash (.refused .tooLong))
  | .file bytes =>
    match String.fromUTF8? bytes with
    | none => .error (.crash .notUtf8)
    | some text =>
      match Toml.read text with
      | .ok entries => .ok entries
      | .error .malformed => .error (.config .malformed)
      | .error .longInteger => .error (.crash .longInteger)
      | .error .tooDeep => .error (.crash .tooDeep)
  | _ => .ok []

/-- A section of the configuration. -/
structure Section where
  name : String
  entries : Toml.Entries

/-- The section with a name, empty if there is none. -/
def sectionOf (config : Toml.Entries) (name : String) : Except Unsettled Section :=
  match config.lookup name with
  | none => .ok ⟨name, []⟩
  | some (.object entries) => .ok ⟨name, entries⟩
  | some _ => .error (.ofConfig (.notATable name))

namespace Section

/-- A flag. -/
def flag (s : Section) (key : String) (default : Bool) : Except Unsettled Bool :=
  match s.entries.lookup key with
  | none => .ok default
  | some (.bool b) => .ok b
  | some d => .error (.ofConfig (.wrongKind s.name key .flag d))

/-- An integer. -/
def integer (s : Section) (key : String) (default : Int) : Except Unsettled Int :=
  match s.entries.lookup key with
  | none => .ok default
  | some (.int n) => .ok n
  | some d => .error (.ofConfig (.wrongKind s.name key .integer d))

/-- A text. -/
def text (s : Section) (key : String) (default : String) : Except Unsettled String :=
  match s.entries.lookup key with
  | none => .ok default
  | some (.string t) => .ok t
  | some d => .error (.ofConfig (.wrongKind s.name key .text d))

/-- A table, empty if there is none. -/
def table (s : Section) (key : String) : Except Unsettled Toml.Entries :=
  match s.entries.lookup key with
  | none => .ok []
  | some (.object entries) => .ok entries
  | some d => .error (.ofConfig (.wrongKind s.name key .table d))

/-- A flag that the command line can set. -/
def flagUnless (s : Section) (given : Bool) (key : String) : Except Unsettled Bool :=
  if given then .ok true else s.flag key false

end Section

/-! ## Settling -/

/-- The values of a configuration table, as a script sees them. -/
def contextOf (entries : Toml.Entries) : Bindings :=
  entries.mapIdx fun i (name, d) => (name, .ofDatum [i, 0, 0] d)

/-- The chunk size that the command line gives, or else the configured one. -/
def ChunkSize.orConfigured (configured : Int) : ChunkSize → Except Unsettled Int
  | .unsaid => .ok configured
  | .blank => .error (.crash .numberless)
  | .given n => .ok n

/-- The chunk size, which must be positive. -/
def chunkSizeOf (build : Section) (r : Request) : Except Unsettled Int := do
  let configured ← build.integer "chunk_size" Build.Options.default.chunkSize
  let n ← r.chunkSize.orConfigured configured
  if n < 1 then .error (.ofConfig (.badChunkSize n)) else .ok n

/-- The settings, given the configuration. -/
def settle (input : Path) (r : Request) (config : Toml.Entries) : Except Unsettled Settings := do
  let standard := Build.Options.default
  let build ← sectionOf config "build"
  let module ← sectionOf config "module"
  let context ← build.table "context"
  let chunkSize ← chunkSizeOf build r
  let pretty ← build.flagUnless r.pretty "pretty_print"
  let indent ← build.text "indent" Build.Indent.standard
  let escape ← if r.noEscape then .ok false else build.flag "escape_markup" standard.escape
  let evaluate ← build.flagUnless r.evaluate "evaluate_expressions"
  let streaming ← build.flagUnless r.stream "streaming"
  let enabled ← module.flagUnless r.module "enabled"
  let dev ← module.flagUnless r.dev "dev"
  let sourceMap ← module.flagUnless r.sourceMap "source_map"
  .ok ⟨input, (nonEmpty? r.output).map .ofText, enabled,
    ⟨pretty, .text indent, escape, evaluate, chunkSize, contextOf context⟩, streaming, dev, sourceMap,
    r.debug, r.verbosity⟩

/-- The settings of a request. -/
def settingsOf (disk : Disk) (input : Path) (r : Request) : Except Unsettled Settings := do
  let config ← readConfig disk (configPath input r)
  settle input r config

end Command
end Atoll
