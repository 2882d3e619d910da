import Atoll.Command.Settings
import Atoll.Log
import Atoll.Stored.Reader
import Atoll.Synthesis
import Atoll.Text.Base64

/-!
# Running a command line

`run` takes a disk and a command line to what is printed and written and to how the run ends.  It
looks at no other paths than those of `touched`.
-/

set_option autoImplicit false

namespace Atoll
namespace Command

open Markup (Fragment)
open Text

/-- How a run ends: with an exit code, or by something it cannot recover from. -/
inductive Ending where
  | exited (code : Nat)
  | crashed (cause : Crash)
  deriving Repr

/-- What comes of a run.  Files are listed in the order in which they are written. -/
structure Outcome where
  out : String
  err : String
  written : List (Path × String)
  ending : Ending
  deriving Repr

namespace Outcome

/-- A run that ends well. -/
def done : Outcome :=
  ⟨"", "", [], .exited 0⟩

/-- A run that ends with a message and an exit code. -/
def failed (code : Nat) (message : String) : Outcome :=
  ⟨"", message, [], .exited code⟩

/-- A run that crashes. -/
def crash (cause : Crash) : Outcome :=
  ⟨"", "", [], .crashed cause⟩

/-- The outcome with something printed in front of its messages. -/
def after (o : Outcome) (messages : String) : Outcome :=
  { o with err := messages ++ o.err }

end Outcome

/-- A line of text. -/
def asLine (s : String) : String :=
  s ++ "\n"

/-- An error that ends the run before anything is compiled. -/
def refuse (message : String) : Outcome :=
  .failed 2 (asLine ("error: " ++ message))

/-! ## Writing -/

/-- The outcome of writing a file and then going on. -/
def writing (disk : Disk) (p : Path) (text : String) (next : Outcome) : Outcome :=
  match disk.refusal? p with
  | some refusal => .crash (.refused refusal)
  | none => { next with written := (p, text) :: next.written }

/-- The outcome of writing the result, to the output file if there is one. -/
def finish (disk : Disk) (s : Settings) (text : String) : Outcome :=
  match s.output with
  | some p => writing disk p text .done
  | none => { Outcome.done with out := text }

/-! ## Modules -/

/-- The line that says where the source map of a module is. -/
def mapLine (place : String) : String :=
  asLine ("# sourceMappingURL=" ++ place)

/-- A source map as text. -/
def mapText (map : Datum) : String :=
  Json.write .plain map

/-- A source map that stands in the line that names it. -/
def inlineMap (map : Datum) : String :=
  let bytes := (mapText map).toUTF8.toList.map UInt8.toNat
  "data:application/json;base64," ++ String.ofList (base64 bytes)

/-- Makes a render module.  Its source map goes beside the output file, or into the module when there
is none. -/
def makeModule (disk : Disk) (s : Settings) (source : String) (tree : Fragment) : Outcome :=
  let made := Synthesis.synthesize tree
    ⟨s.input.name, s.dev, s.build.pretty, s.sourceMap, some source⟩
  match made.map, s.output with
  | none, _ => finish disk s made.code
  | some map, none => finish disk s (made.code ++ mapLine (inlineMap map))
  | some map, some p =>
    if p.name.isEmpty then .crash .nameless
    else
      let beside := p.withName (p.name ++ ".map")
      writing disk beside (mapText map) (finish disk s (made.code ++ mapLine beside.name))

/-! ## Markup -/

/-- The lines of the log.  They are shown only when the messages are asked for twice. -/
def logLines (s : Settings) (notes : List Log.Note) : String :=
  if s.verbosity < 2 then "" else String.join (notes.map fun n => asLine n.line)

/-- How a stream ends a run.  What is streamed to is never full. -/
def endingOf : Build.Ending → Ending
  | .stopped fault => .crashed (.fault fault)
  | _ => .exited 0

/-- Streams markup.  The output file is there from the beginning, and keeps what was written before a
fault. -/
def streamMarkup (disk : Disk) (s : Settings) (tree : Fragment) : Outcome :=
  let streamed := Build.stream tree s.build fun _ => true
  let text := String.join streamed.chunks
  let messages := logLines s (.streaming :: Log.notesOf tree s.build)
  match s.output with
  | none => ⟨text, messages, [], endingOf streamed.ending⟩
  | some p => writing disk p text ⟨"", messages, [], endingOf streamed.ending⟩

/-- Builds markup as a whole. -/
def buildMarkup (disk : Disk) (s : Settings) (tree : Fragment) : Outcome :=
  let messages := logLines s (Log.notesOf tree s.build)
  match Build.markup tree s.build with
  | .ok html => (finish disk s html).after messages
  | .error fault => (Outcome.crash (.fault fault)).after messages

/-! ## Runs -/

/-- A tree as it is shown for debugging. -/
def dump (tree : Fragment) : String :=
  asLine ((Stored.ofFragment tree).toJson (some "  ") false)

/-- What becomes of a document that can be compiled. -/
def compileTree (disk : Disk) (s : Settings) (source : String) (tree : Fragment) : Outcome :=
  if s.module then makeModule disk s source tree
  else if s.streaming then streamMarkup disk s tree
  else buildMarkup disk s tree

/-- What becomes of a source text.  Its problems are shown first, and errors end the run. -/
def compileSource (disk : Disk) (s : Settings) (source : String) : Outcome :=
  let parsed := Markup.parse source
  let problems := String.join
    (parsed.diagnostics.map fun d => asLine (d.format source s.input.text))
  if !parsed.errors.isEmpty then .failed 1 problems
  else
    let shown := if s.debug then dump parsed.tree else ""
    (compileTree disk s source parsed.tree).after (problems ++ shown)

/-- Reads the input and compiles it.  All line ends of the input count as newlines. -/
def compileInput (disk : Disk) (s : Settings) : Outcome :=
  match disk.read s.input with
  | .error .unnameable => .crash (.refused .unnameable)
  | .error refusal => refuse ("cannot read " ++ s.input.text ++ ": " ++ refusal.message)
  | .ok bytes =>
    match String.fromUTF8? bytes with
    | some text => compileSource disk s (String.ofList (plainNewlines text.toList))
    | none => .crash .notUtf8

/-- Runs a command line. -/
def run (disk : Disk) (argv : List String) : Outcome :=
  match readArguments argv with
  | .error .helped => { Outcome.done with out := help }
  | .error (.failed e) => .failed 2 e.text
  | .ok (input, request) =>
    match settingsOf disk (.ofText input) request with
    | .error (.config e) => refuse e.message
    | .error (.crash cause) => .crash cause
    | .ok s => compileInput disk s

/-- The paths that a run can look at: the input, the configuration, the files it writes and their
directories. -/
def touched (argv : List String) : List Path :=
  match readArguments argv with
  | .error _ => []
  | .ok (input, request) =>
    let input := Path.ofText input
    let outputs := match nonEmpty? request.output with
      | some text =>
        let p := Path.ofText text
        [p, p.withName (p.name ++ ".map"), p.parent]
      | none => []
    [input, configPath input request] ++ outputs

end Command
end Atoll
