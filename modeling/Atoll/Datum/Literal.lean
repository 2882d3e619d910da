import Atoll.Datum
import Atoll.Decimal.Layout
import Atoll.Text.Blank
import Atoll.Text.Listing
import Atoll.Text.Quoted
import Atoll.Text.Search

/-!
# Data as literals

Plain data as it stands in generated code and in messages.  `literal` writes it on one line;
`layout` breaks what does not fit the width: lists and objects put every item on a line of its own,
and a long text is cut behind its lines and blanks into literals that stand next to each other.
-/

set_option autoImplicit false

namespace Atoll
namespace Datum

open Text

mutual

/-- Data as a literal on one line. -/
def literal : Datum → String
  | .null => "None"
  | .bool b => if b then "True" else "False"
  | .int n => toString n
  | .float x => Decimal.literal x
  | .string s => quoted s
  | .moment m => m.literal
  | .array items => "[" ++ ", ".intercalate (literalAll items) ++ "]"
  | .object entries => "\x7b" ++ ", ".intercalate (literalEntries entries) ++ "\x7d"

/-- The literals of a list of items. -/
def literalAll : List Datum → List String
  | [] => []
  | d :: ds => literal d :: literalAll ds

/-- The literals of a list of entries. -/
def literalEntries : List (String × Datum) → List String
  | [] => []
  | (k, d) :: ds => (quoted k ++ ": " ++ literal d) :: literalEntries ds

end

/-- Data as it is shown inside a text: a text as it is, all else as a literal. -/
def shown : Datum → String
  | .string s => s
  | d => d.literal

mutual

/-- Whether data has an integer in it that has too many digits to be written. -/
def hasLongInteger : Datum → Bool
  | .int n => (Decimal.intText? n).isNone
  | .array items => anyLongInteger items
  | .object entries => anyLongEntry entries
  | _ => false

/-- `hasLongInteger` on lists. -/
def anyLongInteger : List Datum → Bool
  | [] => false
  | d :: ds => hasLongInteger d || anyLongInteger ds

/-- `hasLongInteger` on entries. -/
def anyLongEntry : List (String × Datum) → Bool
  | [] => false
  | (_, d) :: ds => hasLongInteger d || anyLongEntry ds

end

/-! ## Breaking lines -/

/-- The words of a line, each with the blanks behind it. -/
def words : List Char → List Char → List (List Char)
  | word, [] => if word.isEmpty then [] else [word.reverse]
  | word, c :: cs =>
    match word with
    | last :: _ =>
      if isBlank last && !isBlank c then word.reverse :: words [c] cs else words (c :: word) cs
    | [] => words [c] cs

/-- The quoted form of some characters. -/
def quotedChars (s : List Char) : String :=
  quoted (String.ofList s)

/-- Words gathered into pieces whose quoted form fits the width, `lastWidth` for the piece that ends
the text. -/
def gather (width lastWidth : Int) : List Char → List (List Char) → List String
  | current, [] => if current.isEmpty then [] else [quotedChars current]
  | current, word :: rest =>
    let limit := if rest.isEmpty then lastWidth else width
    if (quotedChars (current ++ word)).length > limit then
      (if current.isEmpty then [] else [quotedChars current]) ++ gather width lastWidth word rest
    else gather width lastWidth (current ++ word) rest

/-- The pieces of a text, line by line.  The last line has `lastWidth` to fit. -/
def pieces (width lastWidth : Int) : List (List Char) → List String
  | [] => []
  | line :: rest =>
    let limit := if rest.isEmpty then lastWidth else width
    let here :=
      if (quotedChars line).length ≤ limit then [quotedChars line]
      else gather width limit [] (words [] line)
    here ++ pieces width lastWidth rest

/-- A text that does not fit on its line.  `indent` is where it starts, `allowance` what stands
behind it; at the top it gets parentheses. -/
def layoutText (total : Int) (indent allowance : Nat) (top : Bool) (s : String) : String :=
  let (indent, allowance) := if top then (indent + 1, allowance + 1) else (indent, allowance)
  let width := total - indent
  match pieces width (width - allowance) (listing s.toList) with
  | [] => quoted s
  | [piece] => piece
  | many =>
    let body := ("\n" ++ times indent " ").intercalate many
    if top then "(" ++ body ++ ")" else body

mutual

/-- Data that starts at column `indent` with `allowance` characters behind it. -/
def layoutAt (total : Int) (indent allowance : Nat) (top : Bool) : Datum → String
  | .array items =>
    let line := literal (.array items)
    if line.length ≤ total - indent - allowance then line
    else
      "[" ++ (",\n" ++ times (indent + 1) " ").intercalate
        (layoutAll total (indent + 1) (allowance + 1) items) ++ "]"
  | .object entries =>
    let line := literal (.object entries)
    if line.length ≤ total - indent - allowance then line
    else
      "\x7b" ++ (",\n" ++ times (indent + 1) " ").intercalate
        (layoutEntries total (indent + 1) (allowance + 1) entries) ++ "\x7d"
  | .string s =>
    let line := quoted s
    if line.length ≤ total - indent - allowance then line
    else layoutText total indent allowance top s
  | .null => literal .null
  | .bool b => literal (.bool b)
  | .int n => literal (.int n)
  | .float x => literal (.float x)
  | .moment m => literal (.moment m)

/-- Items one below the other; only the last has more than a comma behind it. -/
def layoutAll (total : Int) (indent allowance : Nat) : List Datum → List String
  | [] => []
  | d :: ds =>
    layoutAt total indent (if ds.isEmpty then allowance else 1) false d
      :: layoutAll total indent allowance ds

/-- Entries one below the other. -/
def layoutEntries (total : Int) (indent allowance : Nat) : List (String × Datum) → List String
  | [] => []
  | (k, d) :: ds =>
    let key := quoted k
    (key ++ ": " ++ layoutAt total (indent + key.length + 2)
        (if ds.isEmpty then allowance else 1) false d)
      :: layoutEntries total indent allowance ds

end

/-- Data as a literal with lines of at most 88 characters where that is possible. -/
def layout (d : Datum) : String :=
  layoutAt 88 0 0 true d

end Datum
end Atoll
