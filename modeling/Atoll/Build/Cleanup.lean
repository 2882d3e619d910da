import Atoll.Text.Blank
import Atoll.Text.Search

/-!
# Cleaning up pretty output

Blank lines are dropped, the whole is trimmed, and exactly one newline stands at the end.  The
cleanup takes the output in pieces: it keeps the line that is not complete yet, and one complete
line, which is let go only when another one comes.
-/

set_option autoImplicit false

namespace Atoll
namespace Build

open Text

/-- The incomplete line, and the complete line that is held back. -/
structure Cleanup where
  pending : List Char
  held : Option (List Char)
  deriving DecidableEq, Repr, Inhabited

namespace Cleanup

/-- Nothing read yet. -/
def start : Cleanup :=
  ⟨[], none⟩

/-- Takes a complete line and lets go the one before it.  The first line loses its leading
blanks. -/
def takeLine (held : Option (List Char)) (line : List Char) : Option (List Char) × List Char :=
  if allBlank line then (held, [])
  else
    match held with
    | none => (some (trimStart line), [])
    | some before => (some line, before ++ ['\n'])

/-- Takes complete lines one after the other. -/
def takeLines (held : Option (List Char)) : List (List Char) → Option (List Char) × List Char
  | [] => (held, [])
  | line :: rest =>
    let (held, out) := takeLine held line
    let (held, more) := takeLines held rest
    (held, out ++ more)

/-- Takes a piece of output, and gives what can be written now. -/
def feed (c : Cleanup) (piece : String) : Cleanup × String :=
  let lines := Text.lines (c.pending ++ piece.toList)
  let (held, out) := takeLines c.held lines.dropLast
  (⟨lines.getLast?.getD [], held⟩, String.ofList out)

/-- Ends the output: everything that is left, trimmed, and a newline. -/
def close (c : Cleanup) : Cleanup × String :=
  let (held, out) := takeLine c.held c.pending
  let last := match held with
    | some line => trimEnd line
    | none => []
  (start, String.ofList (out ++ last ++ ['\n']))

end Cleanup

/-- A whole output cleaned up. -/
def tidy (output : String) : String :=
  let (c, out) := Cleanup.start.feed output
  out ++ c.close.2

end Build
end Atoll
