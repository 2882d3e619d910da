import Atoll.Text.Search

/-!
# Brackets, quotes and comments of a script

A script is read character by character.  `Inside` says whether the reader stands in code or in a
quoted text; `Nesting` also counts the open brackets.  `topLevel` marks the characters that stand
outside all brackets and quotes; every search in a script is for marked characters.
-/

set_option autoImplicit false

namespace Atoll
namespace Script

/-- The marks that open and close quoted texts. -/
def isQuote (c : Char) : Bool :=
  c == '"' || c == '\'' || c == '\x60'

/-- The opening brackets. -/
def isOpening (c : Char) : Bool :=
  c == '(' || c == '[' || c == '{'

/-- The closing brackets. -/
def isClosing (c : Char) : Bool :=
  c == ')' || c == ']' || c == '}'

/-- Where the reader stands: in code, in a quoted text, or behind a backslash in one. -/
inductive Inside where
  | code
  | quoted (quote : Char)
  | escaped (quote : Char)
  deriving DecidableEq, Repr

namespace Inside

/-- Whether a character breaks off a quoted text: a line end does, except between backticks. -/
def breaksOff (quote c : Char) : Bool :=
  c == '\n' && quote != '\x60'

/-- Where the reader stands behind a character. -/
def next (i : Inside) (c : Char) : Inside :=
  match i with
  | .code => if isQuote c then .quoted c else .code
  | .escaped quote => .quoted quote
  | .quoted quote =>
    if c == '\\' then .escaped quote
    else if c == quote || breaksOff quote c then .code
    else .quoted quote

end Inside

/-- Where the reader stands, and how many brackets are open there. -/
structure Nesting where
  depth : Nat
  inside : Inside
  deriving DecidableEq, Repr

namespace Nesting

/-- The beginning of a script. -/
def outermost : Nesting :=
  ⟨0, .code⟩

/-- The nesting behind a character.  A closing bracket that nothing opened changes nothing. -/
def next (n : Nesting) (c : Char) : Nesting :=
  let depth :=
    if n.inside == .code && isOpening c then n.depth + 1
    else if n.inside == .code && isClosing c then n.depth - 1
    else n.depth
  ⟨depth, n.inside.next c⟩

/-- Whether a character read here stands outside all brackets and quotes.  Brackets and quotes
themselves never do; a line end that breaks off a quoted text may. -/
def atTop (n : Nesting) (c : Char) : Bool :=
  n.depth == 0 &&
    match n.inside with
    | .code => !(isQuote c || isOpening c || isClosing c)
    | .quoted quote => Inside.breaksOff quote c
    | .escaped _ => false

end Nesting

/-- The characters of a text, each with whether it stands outside all brackets and quotes. -/
def marked : Nesting → List Char → List (Char × Bool)
  | _, [] => []
  | n, c :: cs => (c, n.atTop c) :: marked (n.next c) cs

/-- The characters of a text, marked from its beginning. -/
def topLevel (s : List Char) : List (Char × Bool) :=
  marked .outermost s

/-- The offset of the first top-level occurrence of a character. -/
def findTop? (c : Char) (s : List Char) : Option Nat :=
  (topLevel s).findIdx? fun (d, top) => top && d == c

/-- The pieces of a marked text between its top-level occurrences of a character. -/
def splitMarked (c : Char) : List (Char × Bool) → List (List Char)
  | [] => [[]]
  | (d, top) :: rest =>
    if top && d == c then [] :: splitMarked c rest
    else
      match splitMarked c rest with
      | [] => [[d]]
      | piece :: pieces => (d :: piece) :: pieces

/-- The pieces of a text between its top-level commas. -/
def splitCommas (s : List Char) : List (List Char) :=
  splitMarked ',' (topLevel s)

/-- Whether an equals sign between two characters assigns, and is no part of a comparison or an
arrow. -/
def isAssignment (before after : Option Char) : Bool :=
  !(after == some '=' || after == some '>')
    && !(before == some '=' || before == some '!' || before == some '<' || before == some '>')

/-- The offset of the first top-level assignment sign in a marked text that follows `before`. -/
def findAssignFrom? (before : Option Char) : List (Char × Bool) → Option Nat
  | [] => none
  | (c, top) :: rest =>
    if top && c == '=' && isAssignment before (rest.head?.map (·.1)) then some 0
    else (findAssignFrom? (some c) rest).map (· + 1)

/-- The offset of the first top-level assignment sign. -/
def findAssign? (s : List Char) : Option Nat :=
  findAssignFrom? none (topLevel s)

/-- The length of a text up to the bracket that closes the first one, or of all of it. -/
def bracketLength : Nesting → List Char → Nat
  | _, [] => 0
  | n, c :: cs =>
    let after := n.next c
    if n.inside == .code && isClosing c && after.depth == 0 then 1
    else 1 + bracketLength after cs

/-- Where the reader stands with comments: in code or a quoted text, in a comment to the end of the
line, or in one with an end mark. -/
inductive Region where
  | text (inside : Inside)
  | lineComment
  | blockComment
  deriving DecidableEq, Repr

/-- A script without its comments.  The line end behind a comment stays. -/
def uncommentFrom : Region → List Char → List Char
  | .text .code, '/' :: '/' :: cs => uncommentFrom .lineComment cs
  | .text .code, '/' :: '*' :: cs => uncommentFrom .blockComment cs
  | .text inside, c :: cs => c :: uncommentFrom (.text (inside.next c)) cs
  | .lineComment, '\n' :: cs => '\n' :: uncommentFrom (.text .code) cs
  | .lineComment, _ :: cs => uncommentFrom .lineComment cs
  | .blockComment, '*' :: '/' :: cs => uncommentFrom (.text .code) cs
  | .blockComment, _ :: cs => uncommentFrom .blockComment cs
  | _, [] => []

/-- A script without its comments. -/
def uncomment (s : List Char) : List Char :=
  uncommentFrom (.text .code) s

end Script
end Atoll
