import Atoll.Toml.Table

/-!
# TOML documents

`read` takes a whole document: lines with a key and a value, headers of tables, and comments.
-/

set_option autoImplicit false

namespace Atoll
namespace Toml

open Text

/-! ## Comments and keys -/

/-- What follows a comment, if one stands here. -/
def skipComment (s : List Char) : Except Error (List Char) :=
  match s with
  | '#' :: cs =>
    let comment := cs.takeWhile (· != '\n')
    if comment.any (isForbidden false) then .error .malformed
    else .ok (cs.drop comment.length)
  | _ => .ok s

/-- The text without leading blanks, newlines and comments.  `fuel` bounds the comments. -/
def skipFiller : Nat → List Char → Except Error (List Char)
  | 0, _ => .error .malformed
  | fuel + 1, s =>
    match s.dropWhile isSpaceOrNewline with
    | '#' :: cs => do skipFiller fuel (← skipComment ('#' :: cs))
    | rest => .ok rest

/-- The characters of a key without quotes. -/
def isBare (c : Char) : Bool :=
  c.isAlphanum || c == '-' || c == '_'

/-- One name of a key. -/
def readName : Reader String := fun s =>
  match s with
  | '\'' :: cs => readLiteral cs
  | '"' :: cs => readBasic cs
  | _ =>
    let name := s.takeWhile isBare
    if name.isEmpty then .error .malformed else .ok (String.ofList name, s.drop name.length)

/-- The names of a key with dots between them.  `fuel` bounds the names still to come. -/
def readNames : Nat → List String → Reader Key
  | 0, _, _ => .error .malformed
  | fuel + 1, done, s => do
    let (name, rest) ← readName s
    match skipSpace rest with
    | '.' :: cs => readNames fuel (name :: done) (skipSpace cs)
    | rest => .ok ((name :: done).reverse, rest)

/-- A key, with the blanks behind it. -/
def readKey : Reader Key := fun s =>
  readNames (s.length + 1) [] s

/-! ## Values -/

/-- A key, an equals sign and a value. -/
def readPair (value : Reader Datum) : Reader (Key × Datum) := fun s => do
  let (key, rest) ← readKey s
  match rest with
  | '=' :: cs =>
    let (d, rest) ← value (skipSpace cs)
    .ok ((key, d), rest)
  | _ => .error .malformed

/-- The items of an array behind its bracket or a comma.  `fuel` bounds the items still to come. -/
def readItems (value : Reader Datum) : Nat → List Datum → Reader (List Datum)
  | 0, _, _ => .error .malformed
  | fuel + 1, done, s => do
    match ← skipFiller (s.length + 1) s with
    | ']' :: cs => .ok (done.reverse, cs)
    | s =>
      let (d, rest) ← value s
      match ← skipFiller (rest.length + 1) rest with
      | ',' :: cs => readItems value fuel (d :: done) cs
      | ']' :: cs => .ok ((d :: done).reverse, cs)
      | _ => .error .malformed

/-- The pairs of an inline table behind its brace or a comma.  `fuel` bounds the pairs still to
come. -/
def readPairs (value : Reader Datum) : Nat → Document → Reader Entries
  | 0, _, _ => .error .malformed
  | fuel + 1, done, s => do
    let ((key, d), rest) ← readPair value (skipSpace s)
    if done.isFrozen key then .error .malformed
    else
      let done ← done.assign [] key d
      match skipSpace rest with
      | ',' :: cs => readPairs value fuel done cs
      | '}' :: cs => .ok (done.entries, cs)
      | _ => .error .malformed

/-- A value that starts here, its parts read by `value`. -/
def readStep (value : Reader Datum) : Reader Datum := fun s =>
  match s with
  | '"' :: '"' :: '"' :: cs => (readLines '"' cs).map fun (t, rest) => (.string t, rest)
  | '"' :: cs => (readBasic cs).map fun (t, rest) => (.string t, rest)
  | '\'' :: '\'' :: '\'' :: cs => (readLines '\'' cs).map fun (t, rest) => (.string t, rest)
  | '\'' :: cs => (readLiteral cs).map fun (t, rest) => (.string t, rest)
  | '[' :: cs => (readItems value (cs.length + 1) [] cs).map fun (ds, rest) => (.array ds, rest)
  | '{' :: cs =>
    match skipSpace cs with
    | '}' :: rest => .ok (.object [], rest)
    | _ =>
      (readPairs value (cs.length + 1) .empty cs).map fun (table, rest) => (.object table, rest)
  | _ => readPlain s

/-- A value nested at most `depth` deep. -/
def readValue : Nat → Reader Datum
  | 0 => fun _ => .error .tooDeep
  | depth + 1 => readStep (readValue depth)

/-- How deeply values may be nested. -/
def maxDepth : Nat :=
  480

/-! ## Statements -/

/-- The header of a table or of an array of tables: its key, behind the given number of brackets. -/
def readHeader (brackets : Nat) : Reader Key := fun s => do
  let (key, rest) ← readKey (skipSpace (s.drop brackets))
  match after? (List.replicate brackets ']') rest with
  | some rest => .ok (key, rest)
  | none => .error .malformed

/-- A statement: the header that holds from here on and the document with what it says. -/
def readStatement (header : Key) (d : Document) : Reader (Key × Document) := fun s =>
  match s with
  | '#' :: _ => .ok ((header, d), s)
  | '[' :: '[' :: _ => do
    let (key, rest) ← readHeader 2 s
    .ok ((key, ← d.openArray key), rest)
  | '[' :: _ => do
    let (key, rest) ← readHeader 1 s
    .ok ((key, ← d.openTable key), rest)
  | _ => do
    let ((key, value), rest) ← readPair (readValue maxDepth) s
    .ok ((header, ← d.assign header key value), rest)

/-- The statements of a document, each on lines of its own.  `fuel` bounds the lines. -/
def readStatements : Nat → Key → Document → List Char → Except Error Document
  | 0, _, _, _ => .error .malformed
  | fuel + 1, header, d, s =>
    match skipSpace s with
    | [] => .ok d
    | '\n' :: cs => readStatements fuel header d cs
    | s => do
      let ((header, d), rest) ← readStatement header d s
      match ← skipComment (skipSpace rest) with
      | [] => .ok d
      | '\n' :: cs => readStatements fuel header d cs
      | _ => .error .malformed

/-- The entries of a document. -/
def read (s : String) : Except Error Entries :=
  let s := unifyNewlines s.toList
  (readStatements (s.length + 1) [] .empty s).map Document.entries

end Toml
end Atoll
