import Atoll.Datum
import Atoll.Decimal.Layout
import Atoll.Decimal.Reader
import Atoll.Text.Quoted
import Atoll.Text.Search
import Atoll.Trouble

/-!
# JSON text

Writing and reading plain data as JSON.  `Style` says how it is written; `read` takes a whole text.
The reader takes the words `NaN` and `Infinity` for numbers; of two entries with one key the last
value wins and stays in the first one's place.
-/

set_option autoImplicit false

namespace Atoll
namespace Json

open Text

/-! ## Writing -/

/-- How JSON is written.  With an indent, every item stands on a line of its own. -/
structure Style where
  indent : Option String
  itemMark : String
  keyMark : String
  asciiOnly : Bool
  sortKeys : Bool
  deriving DecidableEq, Repr

namespace Style

/-- Without any spaces. -/
def compact : Style :=
  ⟨none, ",", ":", false, false⟩

/-- Indented, with one item on a line. -/
def indented (unit : String) : Style :=
  ⟨some unit, ",", ": ", false, false⟩

/-- On one line with spaces behind the marks, ASCII only. -/
def plain : Style :=
  ⟨none, ", ", ": ", true, false⟩

/-- The form in which trees are stored: sorted keys, ASCII only. -/
def stored (indent : Option String) : Style :=
  ⟨indent, if indent.isSome then "," else ", ", ": ", true, true⟩

end Style

/-- The unit of an indent that is asked for by its width. -/
def indentUnit (width : Int) : Except Trouble String :=
  repeated " " width

/-- A code point as an escape. -/
def unicodeEscape (n : Nat) : List Char :=
  '\\' :: 'u' :: hexPadded 4 n

/-- A character inside a JSON string.  Beyond the basic plane, an ASCII-only string has the two
surrogates of the character. -/
def writeChar (asciiOnly : Bool) (c : Char) : List Char :=
  if c == '"' then ['\\', '"']
  else if c == '\\' then ['\\', '\\']
  else if c == '\n' then ['\\', 'n']
  else if c == '\r' then ['\\', 'r']
  else if c == '\t' then ['\\', 't']
  else if c == '\x08' then ['\\', 'b']
  else if c == '\x0c' then ['\\', 'f']
  else if c.toNat < 0x20 then unicodeEscape c.toNat
  else if c.toNat < 0x7f || !asciiOnly then [c]
  else if c.toNat < 0x10000 then unicodeEscape c.toNat
  else
    let n := c.toNat - 0x10000
    unicodeEscape (0xd800 + n / 0x400) ++ unicodeEscape (0xdc00 + n % 0x400)

/-- A JSON string. -/
def writeString (asciiOnly : Bool) (s : String) : String :=
  String.ofList ('"' :: s.toList.flatMap (writeChar asciiOnly) ++ ['"'])

/-- A double as JSON text. -/
def writeFloat (x : Float) : String :=
  match Double.view x with
  | .nan => "NaN"
  | .infinite negative => if negative then "-Infinity" else "Infinity"
  | .finite _ _ _ => Decimal.literal x

/-- Items between brackets.  With an indent each stands on its own line, one level deeper than the
closing bracket. -/
def writeItems (style : Style) (level : Nat) (opening closing : String) (items : List String) :
    String :=
  if items.isEmpty then opening ++ closing
  else
    match style.indent with
    | none => opening ++ style.itemMark.intercalate items ++ closing
    | some unit =>
      let newline (level : Nat) := "\n" ++ times level unit
      opening ++ newline (level + 1)
        ++ (style.itemMark ++ newline (level + 1)).intercalate items ++ newline level ++ closing

/-- Whether the first key comes before the second or is the same. -/
def keyLe (a b : String × String) : Bool :=
  !decide (b.1 < a.1)

mutual

/-- Data as JSON at a level of nesting. -/
def writeAt (style : Style) (level : Nat) : Datum → String
  | .null => "null"
  | .bool b => if b then "true" else "false"
  | .int n => toString n
  | .float x => writeFloat x
  | .string s => writeString style.asciiOnly s
  | .moment m => writeString style.asciiOnly m.literal
  | .array items => writeItems style level "[" "]" (writeAll style (level + 1) items)
  | .object entries =>
    let texts := writeEntries style (level + 1) entries
    let texts := if style.sortKeys then texts.mergeSort keyLe else texts
    writeItems style level "\x7b" "\x7d"
      (texts.map fun (k, v) => writeString style.asciiOnly k ++ style.keyMark ++ v)

/-- The texts of a list of items. -/
def writeAll (style : Style) (level : Nat) : List Datum → List String
  | [] => []
  | d :: ds => writeAt style level d :: writeAll style level ds

/-- The keys of a list of entries with the texts of their values. -/
def writeEntries (style : Style) (level : Nat) : List (String × Datum) → List (String × String)
  | [] => []
  | (k, d) :: ds => (k, writeAt style level d) :: writeEntries style level ds

end

/-- Data as JSON. -/
def write (style : Style) (d : Datum) : String :=
  writeAt style 0 d

/-! ## Reading -/

/-- What is wrong with a text that is not JSON. -/
inductive Flaw where
  | noValue
  | noKey
  | noColon
  | noComma
  | openString
  | controlCharacter
  | badEscape
  | badUnicodeEscape
  /-- Something stands behind the value. -/
  | trailing
  | byteOrderMark
  deriving DecidableEq, Repr, Inhabited

/-- The message of a flaw. -/
def Flaw.message : Flaw → String
  | .noValue => "Expecting value"
  | .noKey => "Expecting property name enclosed in double quotes"
  | .noColon => "Expecting ':' delimiter"
  | .noComma => "Expecting ',' delimiter"
  | .openString => "Unterminated string starting at"
  | .controlCharacter => "Invalid control character at"
  | .badEscape => "Invalid \\escape"
  | .badUnicodeEscape => "Invalid \\uXXXX escape"
  | .trailing => "Extra data"
  | .byteOrderMark => "Unexpected UTF-8 BOM (decode using utf-8-sig)"

/-- Why a text cannot be read. -/
inductive Error where
  /-- It is not JSON. -/
  | malformed (flaw : Flaw)
  /-- It has an integer with too many digits. -/
  | longInteger (digits : Nat)
  /-- It is nested too deeply. -/
  | tooDeep
  deriving DecidableEq, Repr

/-- A reader takes a piece of data from the front of a text. -/
abbrev Reader (α : Type) := List Char → Except Error (α × List Char)

/-- The blanks of JSON. -/
def isSpace (c : Char) : Bool :=
  c == ' ' || c == '\t' || c == '\n' || c == '\r'

/-- The text without leading blanks. -/
def skipSpace (s : List Char) : List Char :=
  s.dropWhile isSpace

/-- The number spelled by four hexadecimal digits in front of the text, with something behind
them. -/
def fourHex? : List Char → Option (Nat × List Char)
  | a :: b :: c :: d :: e :: cs =>
    ([a, b, c, d].mapM hexValue?).map fun ds => (ofDigits 16 ds, e :: cs)
  | _ => none

/-- The character behind a backslash that is not followed by `u`. -/
def simpleEscape? : Char → Option Char
  | '"' => some '"'
  | '\\' => some '\\'
  | '/' => some '/'
  | 'b' => some '\x08'
  | 'f' => some '\x0c'
  | 'n' => some '\n'
  | 'r' => some '\r'
  | 't' => some '\t'
  | _ => none

/-- Two surrogates as one code point. -/
def joinSurrogates? (high low : Nat) : Option Nat :=
  if 0xd800 ≤ high && high ≤ 0xdbff && 0xdc00 ≤ low && low ≤ 0xdfff then
    some (0x10000 + (high - 0xd800) * 0x400 + (low - 0xdc00))
  else none

/-- The character behind `\u`, which may take a second escape for its low surrogate.  A surrogate on
its own is read as U+FFFD. -/
def unicodeChar? (s : List Char) : Option (Char × List Char) :=
  match fourHex? s with
  | none => none
  | some (n, rest) =>
    match rest with
    | '\\' :: 'u' :: cs =>
      match fourHex? cs with
      | some (m, rest') =>
        match joinSurrogates? n m with
        | some joined => some (scalar joined, rest')
        | none => some (scalar n, rest)
      | none => some (scalar n, rest)
    | _ => some (scalar n, rest)

/-- The rest of a string behind its opening quote.  `fuel` bounds the characters still to come. -/
def readChars : Nat → List Char → Reader (List Char)
  | 0, _, _ => .error (.malformed .openString)
  | _ + 1, done, '"' :: cs => .ok (done.reverse, cs)
  | fuel + 1, done, '\\' :: 'u' :: cs =>
    match unicodeChar? cs with
    | some (c, rest) => readChars fuel (c :: done) rest
    | none => .error (.malformed .badUnicodeEscape)
  | fuel + 1, done, '\\' :: e :: cs =>
    match simpleEscape? e with
    | some c => readChars fuel (c :: done) cs
    | none => .error (.malformed .badEscape)
  | fuel + 1, done, c :: cs =>
    if c.toNat < 0x20 then .error (.malformed .controlCharacter)
    else if c == '\\' then .error (.malformed .openString)
    else readChars fuel (c :: done) cs
  | _ + 1, _, [] => .error (.malformed .openString)

/-- A string behind its opening quote. -/
def readString : Reader String := fun s =>
  (readChars (s.length + 1) [] s).map fun (cs, rest) => (String.ofList cs, rest)

/-- The fraction of a number, with its point. -/
def takeFraction (s : List Char) : List Char × List Char :=
  match s with
  | '.' :: cs =>
    let digits := cs.takeWhile Char.isDigit
    if digits.isEmpty then ([], s) else ('.' :: digits, cs.drop digits.length)
  | _ => ([], s)

/-- The exponent of a number, with its letter and sign. -/
def takeExponentText (s : List Char) : List Char × List Char :=
  match s with
  | e :: cs =>
    if e == 'e' || e == 'E' then
      let (sign, rest) := match cs with
        | '+' :: r => (['+'], r)
        | '-' :: r => (['-'], r)
        | r => ([], r)
      let digits := rest.takeWhile Char.isDigit
      if digits.isEmpty then ([], s) else (e :: sign ++ digits, rest.drop digits.length)
    else ([], s)
  | [] => ([], s)

/-- A number without its sign: an integer unless it has a fraction or an exponent. -/
def readNumber (negative : Bool) : Reader Datum := fun s =>
  let whole := match s with
    | '0' :: _ => ['0']
    | _ => s.takeWhile Char.isDigit
  let (fraction, rest) := takeFraction (s.drop whole.length)
  let (exponent, rest) := takeExponentText rest
  if whole.isEmpty then .error (.malformed .noValue)
  else if fraction.isEmpty && exponent.isEmpty then
    if whole.length > maxDigits then .error (.longInteger whole.length)
    else
      let n : Int := ofDigits 10 (Decimal.digitValues whole)
      .ok (.int (if negative then -n else n), rest)
  else
    match Decimal.readUnsigned? negative (whole ++ fraction ++ exponent) with
    | some x => .ok (.float x, rest)
    | none => .error (.malformed .noValue)

/-- The words that stand for values. -/
def readWord (s : List Char) : Option (Datum × List Char) :=
  let words : List (String × Datum) :=
    [("null", .null), ("true", .bool true), ("false", .bool false), ("NaN", .float Double.nan),
      ("Infinity", .float (Double.infinity false)), ("-Infinity", .float (Double.infinity true))]
  words.findSome? fun (word, d) => (afterLiteral? word s).map fun rest => (d, rest)

/-- The items of an array behind its bracket or a comma.  `fuel` bounds the items still to come. -/
def readItems (value : Reader Datum) : Nat → List Datum → Reader (List Datum)
  | 0, _, _ => .error (.malformed .noValue)
  | fuel + 1, done, s => do
    let (d, rest) ← value (skipSpace s)
    match skipSpace rest with
    | ',' :: cs => readItems value fuel (d :: done) cs
    | ']' :: cs => .ok ((d :: done).reverse, cs)
    | _ => .error (.malformed .noComma)

/-- The entries of an object behind its brace or a comma.  `fuel` bounds the entries still to
come. -/
def readEntries (value : Reader Datum) : Nat → List (String × Datum) → Reader (List (String × Datum))
  | 0, _, _ => .error (.malformed .noKey)
  | fuel + 1, done, s =>
    match skipSpace s with
    | '"' :: cs => do
      let (key, rest) ← readString cs
      match skipSpace rest with
      | ':' :: cs =>
        let (d, rest) ← value (skipSpace cs)
        let done := setEntry key d done
        match skipSpace rest with
        | ',' :: cs => readEntries value fuel done cs
        | '}' :: cs => .ok (done, cs)
        | _ => .error (.malformed .noComma)
      | _ => .error (.malformed .noColon)
    | _ => .error (.malformed .noKey)

/-- A value that starts here, its parts read by `value`. -/
def readStep (value : Reader Datum) : Reader Datum := fun s =>
  match s with
  | '"' :: cs => (readString cs).map fun (t, rest) => (.string t, rest)
  | '[' :: cs =>
    match skipSpace cs with
    | ']' :: rest => .ok (.array [], rest)
    | _ => (readItems value (cs.length + 1) [] cs).map fun (items, rest) => (.array items, rest)
  | '{' :: cs =>
    match skipSpace cs with
    | '}' :: rest => .ok (.object [], rest)
    | _ =>
      (readEntries value (cs.length + 1) [] cs).map fun (entries, rest) => (.object entries, rest)
  | _ =>
    match readWord s with
    | some found => .ok found
    | none =>
      match s with
      | '-' :: cs => readNumber true cs
      | _ => readNumber false s

/-- A value nested at most `depth` deep. -/
def readValue : Nat → Reader Datum
  | 0 => fun _ => .error .tooDeep
  | depth + 1 => readStep (readValue depth)

/-- How deeply data may be nested. -/
def maxDepth : Nat :=
  1000

/-- The data that a text holds. -/
def read (s : String) : Except Error Datum := do
  if s.toList.head? == some '\ufeff' then throw (.malformed .byteOrderMark)
  let (d, rest) ← readValue maxDepth (skipSpace s.toList)
  if (skipSpace rest).isEmpty then .ok d else .error (.malformed .trailing)

end Json
end Atoll
