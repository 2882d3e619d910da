import Atoll.Command.Run

/-!
# The program

Looks at the files that a run needs, runs the command line, and carries out what comes of it.
-/

set_option autoImplicit false

open Atoll

/-- The number of the system's error about a directory that is read as a file. -/
def directoryCode : UInt32 :=
  21

/-- What an error of the system says about a path. -/
def entryOfError : IO.Error → Disk.Entry
  | .inappropriateType _ code _ => if code == directoryCode then .directory else .blocked
  | .invalidArgument _ _ _ => .tooLong
  | _ => .missing

/-- What stands at a path. -/
def sampleEntry (p : Path) : IO Disk.Entry := do
  if p.text.toList.contains '\x00' then return .unnameable
  try
    return .file (← IO.FS.readBinFile p.text)
  catch e =>
    return entryOfError e

/-- What is said about a run that crashed. -/
def crashMessage : Command.Crash → String
  | .notUtf8 => "a file is not valid UTF-8"
  | .longInteger => "an integer has too many digits"
  | .tooDeep => "the config file is nested too deeply"
  | .nameless => "the output path has no name"
  | .numberless => "the chunk size has no number"
  | .refused refusal => "a file cannot be used: " ++ refusal.message
  | .fault (.failed failure) => failure.text
  | .fault _ => "an expression cannot be evaluated"

/-- Runs the program and gives its exit code. -/
def main (args : List String) : IO UInt32 := do
  let entries ← (Command.touched args).mapM fun p => return (p, ← sampleEntry p)
  let disk : Disk := fun p => (entries.lookup p).getD .missing
  let outcome := Command.run disk args
  for (path, text) in outcome.written do
    IO.FS.writeFile path.text text
  IO.print outcome.out
  IO.eprint outcome.err
  match outcome.ending with
  | .exited code => return code.toUInt32
  | .crashed cause =>
    IO.eprintln (crashMessage cause)
    return 1
