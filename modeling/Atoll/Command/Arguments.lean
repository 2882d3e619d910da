import Atoll.Command.Switch
import Atoll.Decimal.Reader
import Atoll.Text.Quoted

/-!
# Reading the command line

The arguments are first told apart (`Word`): switches, with a value attached to them or not, and
others.  Then they are taken from left to right.

* A long name may be cut short as long as only one name starts with it, and has its value behind an
  equals sign.
* A short name may have its value right behind it or behind an equals sign; short names without
  values can stand together behind one dash.
* What looks like a negative number, has a blank in it or is a single dash is no switch.  Two dashes
  end the switches.
* Two dashes attached to a switch leave it without a value, whatever it was set to before.
-/

set_option autoImplicit false

namespace Atoll
namespace Command

open Text

/-- Why the command line cannot be read. -/
inductive UsageError where
  | missingInput
  | ambiguous (word : String) (names : List String)
  | missingValue (s : Switch)
  | unwantedValue (s : Switch) (value : String)
  | notAnInteger (s : Switch) (value : String)
  | unrecognized (words : List String)
  deriving DecidableEq, Repr

namespace UsageError

/-- A message about a switch. -/
def about (s : Switch) (message : String) : String :=
  "argument " ++ s.title ++ ": " ++ message

/-- The error in words. -/
def message : UsageError → String
  | .missingInput => "the following arguments are required: " ++ inputName
  | .ambiguous word names =>
    "ambiguous option: " ++ word ++ " could match " ++ ", ".intercalate names
  | .missingValue s => about s "expected one argument"
  | .unwantedValue s value => about s ("ignored explicit argument " ++ quoted value)
  | .notAnInteger s value => about s ("invalid int value: " ++ quoted value)
  | .unrecognized words => "unrecognized arguments: " ++ " ".intercalate words

/-- What is shown of the error. -/
def text (e : UsageError) : String :=
  usage ++ programName ++ ": error: " ++ e.message ++ "\n"

end UsageError

/-! ## Words -/

/-- What ends the switches, and stands for no value where it is attached to one. -/
def dashes : String :=
  "--"

/-- How the name of a switch is written. -/
inductive Spelling where
  | long
  | short
  deriving DecidableEq, Repr

/-- The spelling of a name: two dashes stand in front of a long one. -/
def Spelling.ofName (name : List Char) : Spelling :=
  if dashes.toList.isPrefixOf name then .long else .short

/-- A word of the command line. -/
inductive Word where
  /-- An argument, or the value of a switch. -/
  | plain (text : String)
  /-- A switch under one of its names, and what is attached to the name in the same word. -/
  | switch (s : Switch) (spelling : Spelling) (attached : Option (List Char))
  /-- A switch that does not exist. -/
  | unknown (text : String)
  /-- The two dashes that end the switches. -/
  | divider
  deriving DecidableEq, Repr

/-- What is attached behind a name, given the text from the first equals sign on. -/
def behindSign? : List Char → Option (List Char)
  | '=' :: value => some value
  | _ => none

/-- Whether a text looks like a negative number. -/
def isNegativeNumber (s : List Char) : Bool :=
  let s := match s.reverse with
    | '\n' :: cs => cs.reverse
    | _ => s
  match s with
  | '-' :: cs =>
    match cs.dropWhile isDecimal with
    | [] => !cs.isEmpty
    | '.' :: fraction => !fraction.isEmpty && fraction.all isDecimal
    | _ => false
  | _ => false

/-- A word that starts with a dash and is not the name of a switch, nor one with an equals sign. -/
def otherWord (word : String) : Word :=
  if isNegativeNumber word.toList || word.toList.contains ' ' then .plain word else .unknown word

/-- A word that starts with two dashes, by the names that start with it. -/
def longWord (word : String) : Except UsageError Word :=
  let name := word.toList.takeWhile (· != '=')
  match Switch.byName.filter fun (full, _) => name.isPrefixOf full.toList with
  | [] => .ok (otherWord word)
  | [(_, s)] => .ok (.switch s .long (behindSign? (word.toList.drop name.length)))
  | found => .error (.ambiguous word (found.map (·.1)))

/-- A word that starts with one dash, by its first letter. -/
def shortWord (word : String) : Word :=
  match Switch.ofName? (String.ofList (word.toList.take 2)) with
  | some s => .switch s .short (some (word.toList.drop 2))
  | none => otherWord word

/-- What a word before the divider is. -/
def wordOf (word : String) : Except UsageError Word :=
  match word.toList with
  | '-' :: c :: _ =>
    let name := word.toList.takeWhile (· != '=')
    match Switch.ofName? word with
    | some s => .ok (.switch s (.ofName word.toList) none)
    | none =>
      match Switch.ofName? (String.ofList name) with
      | some s => .ok (.switch s (.ofName name) (behindSign? (word.toList.drop name.length)))
      | none => if c == '-' then longWord word else .ok (shortWord word)
  | _ => .ok (.plain word)

/-- The words of a command line.  Behind the divider all are plain. -/
def wordsOf : List String → Except UsageError (List Word)
  | [] => .ok []
  | arg :: rest => do
    if arg == dashes then .ok (.divider :: rest.map .plain)
    else
      let word ← wordOf arg
      .ok (word :: (← wordsOf rest))

/-! ## Requests -/

/-- The chunk size that the command line asks for. -/
inductive ChunkSize where
  /-- It does not say. -/
  | unsaid
  /-- It has the switch, but no number for it. -/
  | blank
  /-- It gives a number. -/
  | given (n : Int)
  deriving DecidableEq, Repr, Inhabited

/-- What the command line asks for. -/
structure Request where
  input : Option String
  output : Option String
  config : Option String
  chunkSize : ChunkSize
  module : Bool
  pretty : Bool
  evaluate : Bool
  noEscape : Bool
  dev : Bool
  sourceMap : Bool
  stream : Bool
  debug : Bool
  verbosity : Nat
  deriving Repr, Inhabited

namespace Request

/-- Nothing asked for. -/
def start : Request :=
  ⟨none, none, none, .unsaid, false, false, false, false, false, false, false, false, 0⟩

end Request

/-- How reading ends early: with an error, or with a call for help. -/
inductive Halt where
  | failed (e : UsageError)
  | helped
  deriving DecidableEq, Repr

/-- Turns a switch without a value on. -/
def turnOn (r : Request) : Switch → Except Halt Request
  | .help => .error .helped
  | .module => .ok { r with module := true }
  | .pretty => .ok { r with pretty := true }
  | .evaluate => .ok { r with evaluate := true }
  | .noEscape => .ok { r with noEscape := true }
  | .dev => .ok { r with dev := true }
  | .sourceMap => .ok { r with sourceMap := true }
  | .stream => .ok { r with stream := true }
  | .debug => .ok { r with debug := true }
  | .verbose => .ok { r with verbosity := r.verbosity + 1 }
  | .output => .ok r
  | .chunkSize => .ok r
  | .config => .ok r

/-- Leaves a switch without a value. -/
def clear (r : Request) : Switch → Request
  | .output => { r with output := none }
  | .config => { r with config := none }
  | .chunkSize => { r with chunkSize := .blank }
  | _ => r

/-- Sets a switch to a value.  Switches without values have none to set. -/
def setTo (r : Request) (s : Switch) (value : String) : Except Halt Request :=
  if value == dashes then .ok (clear r s)
  else
    match s with
    | .output => .ok { r with output := some value }
    | .config => .ok { r with config := some value }
    | .chunkSize =>
      match Decimal.readInt? value.toList with
      | some n => .ok { r with chunkSize := .given n }
      | none => .error (.failed (.notAnInteger s value))
    | _ => .ok r

/-! ## Switches in one word -/

/-- The switches of one word: those that are turned on, then the last one if it takes a value, with
the value if it stands in the word. -/
structure Cluster where
  on : List Switch
  valued : Option (Switch × Option String)
  deriving DecidableEq, Repr

namespace Cluster

/-- One switch with nothing attached to it. -/
def single (s : Switch) : Cluster :=
  if s.takesValue then ⟨[], some (s, none)⟩ else ⟨[s], none⟩

/-- The switches of a word with short names: `s`, and those of the letters behind it.  What stands
behind a switch that takes a value is its value. -/
def ofLetters (s : Switch) : List Char → Except UsageError Cluster
  | [] => .ok (single s)
  | c :: cs =>
    if s.takesValue then .ok ⟨[], some (s, some (String.ofList (c :: cs)))⟩
    else
      match Switch.ofName? (String.ofList ['-', c]) with
      | some next => do
        let found ← ofLetters next cs
        .ok { found with on := s :: found.on }
      | none => .error (.unwantedValue s (String.ofList (c :: cs)))

/-- The switches of one word.  What is attached to a short name without a value is more short names,
with or without an equals sign in front of them. -/
def ofAttached (s : Switch) (spelling : Spelling) : Option (List Char) → Except UsageError Cluster
  | none => .ok (single s)
  | some text =>
    if s.takesValue then .ok ⟨[], some (s, some (String.ofList text))⟩
    else if spelling == .short && !text.isEmpty then ofLetters s text
    else .error (.unwantedValue s (String.ofList text))

end Cluster

/-! ## Taking the words -/

/-- What has been taken so far: the request, and the words that have no place in it. -/
structure Progress where
  request : Request
  extra : List String
  deriving Repr, Inhabited

namespace Progress

/-- A word without a place. -/
def leave (p : Progress) (word : String) : Progress :=
  { p with extra := p.extra ++ [word] }

/-- The input, if there is none yet. -/
def takeInput (p : Progress) (word : String) : Progress :=
  if p.request.input.isSome then p.leave word
  else { p with request := { p.request with input := some word } }

/-- Turns switches on, from left to right. -/
def turnOnAll (p : Progress) : List Switch → Except Halt Progress
  | [] => .ok p
  | s :: rest => do
    let request ← turnOn p.request s
    turnOnAll { p with request := request } rest

end Progress

/-- An error of the command line as an early end. -/
def failing {α : Type} : Except UsageError α → Except Halt α
  | .ok a => .ok a
  | .error e => .error (.failed e)

/-- Takes words from left to right.  A divider right behind the input or in front of it is left
out. -/
def take (p : Progress) : List Word → Except Halt Progress
  | [] => .ok p
  | .plain a :: .divider :: rest =>
    if p.request.input.isSome then take ((p.leave a).leave dashes) rest
    else take (p.takeInput a) rest
  | .plain a :: rest => take (p.takeInput a) rest
  | .divider :: .plain a :: rest =>
    if p.request.input.isSome then take ((p.leave dashes).leave a) rest
    else take (p.takeInput a) rest
  | .divider :: rest => take (p.leave dashes) rest
  | .unknown word :: rest => take (p.leave word) rest
  | .switch s spelling attached :: rest => do
    let found ← failing (Cluster.ofAttached s spelling attached)
    match found.valued with
    | none => take (← p.turnOnAll found.on) rest
    | some (s, some value) =>
      let p ← p.turnOnAll found.on
      let request ← setTo p.request s value
      take { p with request := request } rest
    | some (s, none) =>
      match rest with
      | .plain value :: rest =>
        let p ← p.turnOnAll found.on
        let request ← setTo p.request s value
        take { p with request := request } rest
      | _ => .error (.failed (.missingValue s))

/-- The request of a command line, with its input. -/
def readArguments (argv : List String) : Except Halt (String × Request) := do
  let words ← failing (wordsOf argv)
  let done ← take ⟨.start, []⟩ words
  match done.request.input with
  | none => .error (.failed .missingInput)
  | some input =>
    if done.extra.isEmpty then .ok (input, done.request)
    else .error (.failed (.unrecognized done.extra))

end Command
end Atoll
