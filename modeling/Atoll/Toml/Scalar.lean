import Atoll.Datum
import Atoll.Decimal.Reader
import Atoll.Text.Search

/-!
# Values without parts in TOML

Strings, numbers, dates and times.  A reader takes a value from the front of a text.  Newlines have
been made plain before, so a carriage return is a control character like others.
-/

set_option autoImplicit false

namespace Atoll
namespace Toml

open Text

/-- Why a text cannot be read. -/
inductive Error where
  /-- It is not TOML. -/
  | malformed
  /-- It has an integer with too many digits. -/
  | longInteger
  /-- It is nested too deeply. -/
  | tooDeep
  deriving DecidableEq, Repr

/-- A reader takes something from the front of a text. -/
abbrev Reader (α : Type) := List Char → Except Error (α × List Char)

/-- The blanks within a line. -/
def isSpace (c : Char) : Bool :=
  c == ' ' || c == '\t'

/-- The blanks within and between lines. -/
def isSpaceOrNewline (c : Char) : Bool :=
  isSpace c || c == '\n'

/-- The text without leading blanks. -/
def skipSpace (s : List Char) : List Char :=
  s.dropWhile isSpace

/-- Control characters, of which only a tab may stand in a text, and a newline in one of several
lines. -/
def isForbidden (multiline : Bool) (c : Char) : Bool :=
  (c.toNat < 0x20 || c.toNat == 0x7f) && c != '\t' && !(multiline && c == '\n')

/-! ## Strings -/

/-- The character that so many hexadecimal digits spell. -/
def hexChar? (width : Nat) (s : List Char) : Option (Char × List Char) :=
  if s.length < width then none
  else
    match (s.take width).mapM hexValue? with
    | some digits =>
      let n := ofDigits 16 digits
      if n.isValidChar then some (Char.ofNat n, s.drop width) else none
    | none => none

/-- The character behind a backslash. -/
def escape? : List Char → Option (Char × List Char)
  | 'b' :: cs => some ('\x08', cs)
  | 't' :: cs => some ('\t', cs)
  | 'n' :: cs => some ('\n', cs)
  | 'f' :: cs => some ('\x0c', cs)
  | 'r' :: cs => some ('\r', cs)
  | '"' :: cs => some ('"', cs)
  | '\\' :: cs => some ('\\', cs)
  | 'u' :: cs => hexChar? 4 cs
  | 'U' :: cs => hexChar? 8 cs
  | _ => none

/-- What comes behind a backslash at the end of a line: blanks and newlines up to the next text. -/
def afterJoint? (s : List Char) : Option (List Char) :=
  match skipSpace s with
  | '\n' :: cs => some (cs.dropWhile isSpaceOrNewline)
  | _ => none

/-- The rest of a string in double quotes, behind its opening.  `fuel` bounds the characters still to
come. -/
def readQuoted (multiline : Bool) : Nat → List Char → Reader (List Char)
  | 0, _, _ => .error .malformed
  | _ + 1, _, [] => .error .malformed
  | fuel + 1, done, '"' :: cs =>
    if !multiline then .ok (done.reverse, cs)
    else
      match cs with
      | '"' :: '"' :: rest => .ok (done.reverse, rest)
      | _ => readQuoted multiline fuel ('"' :: done) cs
  | fuel + 1, done, '\\' :: cs =>
    match escape? cs with
    | some (c, rest) => readQuoted multiline fuel (c :: done) rest
    | none =>
      match if multiline then afterJoint? cs else none with
      | some rest => readQuoted multiline fuel done rest
      | none => .error .malformed
  | fuel + 1, done, c :: cs =>
    if isForbidden multiline c then .error .malformed else readQuoted multiline fuel (c :: done) cs

/-- A string of one line in double quotes, behind its quote. -/
def readBasic : Reader String := fun s =>
  (readQuoted false (s.length + 1) [] s).map fun (cs, rest) => (String.ofList cs, rest)

/-- A text up to a closing mark, taken as it is. -/
def readVerbatim (multiline : Bool) (closing : List Char) : Reader (List Char) := fun s =>
  match find? closing s with
  | none => .error .malformed
  | some n =>
    if (s.take n).any (isForbidden multiline) then .error .malformed
    else .ok (s.take n, s.drop (n + closing.length))

/-- A string of one line in single quotes, behind its quote. -/
def readLiteral : Reader String := fun s =>
  (readVerbatim false ['\''] s).map fun (cs, rest) => (String.ofList cs, rest)

/-- The text without a newline right at its start. -/
def dropNewline : List Char → List Char
  | '\n' :: cs => cs
  | s => s

/-- Up to two quotes that stand before the closing ones belong to the string. -/
def takeQuotes (quote : Char) (s : List Char) : List Char × List Char :=
  let quotes := (s.take 2).takeWhile (· == quote)
  (quotes, s.drop quotes.length)

/-- A string of several lines, behind its three quotes. -/
def readLines (quote : Char) : Reader String := fun s => do
  let s := dropNewline s
  let (body, rest) ←
    if quote == '"' then readQuoted true (s.length + 1) [] s
    else readVerbatim true [quote, quote, quote] s
  let (quotes, rest) := takeQuotes quote rest
  .ok (String.ofList (body ++ quotes), rest)

/-! ## Dates and times -/

/-- A number of so many digits between two bounds. -/
def field? (width low high : Nat) (s : List Char) : Option (Nat × List Char) :=
  let digits := s.take width
  let n := ofDigits 10 (Decimal.digitValues digits)
  if digits.length == width && digits.all Char.isDigit && low ≤ n && n ≤ high then
    some (n, s.drop width)
  else none

/-- What follows a character. -/
def afterChar? (c : Char) (s : List Char) : Option (List Char) :=
  after? [c] s

/-- A day, as far as its digits go. -/
def day? (s : List Char) : Option (Day × List Char) := do
  let (year, s) ← field? 4 0 9999 s
  let (month, s) ← field? 2 1 12 (← afterChar? '-' s)
  let (day, s) ← field? 2 1 31 (← afterChar? '-' s)
  some (⟨year, month, day⟩, s)

/-- The fraction of a second in microseconds.  Further digits do not count. -/
def fraction (s : List Char) : Nat × List Char :=
  match s with
  | '.' :: cs =>
    let digits := cs.takeWhile Char.isDigit
    if digits.isEmpty then (0, s)
    else
      let shown := digits.take 6
      let n := ofDigits 10 (Decimal.digitValues shown)
      (n * Nat.pow 10 (6 - shown.length), cs.drop digits.length)
  | _ => (0, s)

/-- A time of day. -/
def clock? (s : List Char) : Option (Clock × List Char) := do
  let (hour, s) ← field? 2 0 23 s
  let (minute, s) ← field? 2 0 59 (← afterChar? ':' s)
  let (second, s) ← field? 2 0 59 (← afterChar? ':' s)
  let (microsecond, s) := fraction s
  some (⟨hour, minute, second, microsecond⟩, s)

/-- Hours and minutes ahead of universal time, in minutes. -/
def distance? (s : List Char) : Option (Int × List Char) := do
  let (hours, s) ← field? 2 0 23 s
  let (minutes, s) ← field? 2 0 59 (← afterChar? ':' s)
  some ((hours * 60 + minutes : Nat), s)

/-- The distance from universal time, if one stands here. -/
def offset (s : List Char) : Option Int × List Char :=
  let found := match s with
    | 'Z' :: cs => some (0, cs)
    | 'z' :: cs => some (0, cs)
    | '+' :: cs => distance? cs
    | '-' :: cs => (distance? cs).map fun (n, rest) => (-n, rest)
    | _ => none
  match found with
  | some (n, rest) => (some n, rest)
  | none => (none, s)

/-- The time behind a day, with its distance from universal time. -/
def timeOfDay? (s : List Char) : Option (Clock × Option Int × List Char) :=
  match s with
  | c :: cs =>
    if c == 'T' || c == 't' || c == ' ' then
      (clock? cs).map fun (clock, rest) => let (zone, rest) := offset rest; (clock, zone, rest)
    else none
  | [] => none

/-- Whether a year has a leap day. -/
def isLeap (year : Nat) : Bool :=
  year % 4 == 0 && (year % 100 != 0 || year % 400 == 0)

/-- The number of days of a month. -/
def daysIn (year month : Nat) : Nat :=
  if month == 2 then if isLeap year then 29 else 28
  else if [4, 6, 9, 11].contains month then 30
  else 31

/-- Whether the calendar has a day.  It starts with the year one. -/
def isDay (d : Day) : Bool :=
  1 ≤ d.year && d.day ≤ daysIn d.year d.month

/-- A date or a time, if one stands here.  A day that the calendar lacks is an error. -/
def readMoment? (s : List Char) : Option (Except Error (Moment × List Char)) :=
  match day? s with
  | some (day, rest) =>
    if !isDay day then some (.error .malformed)
    else
      match timeOfDay? rest with
      | some (clock, zone, rest) => some (.ok (.dateTime day clock zone, rest))
      | none => some (.ok (.date day, rest))
  | none => (clock? s).map fun (clock, rest) => .ok (.time clock, rest)

/-! ## Numbers -/

/-- Digits behind a first one, each with an underscore in front of it or not. -/
def moreDigits (isDigit : Char → Bool) : List Char → List Char × List Char
  | '_' :: d :: cs =>
    if isDigit d then
      let (digits, rest) := moreDigits isDigit cs
      (d :: digits, rest)
    else ([], '_' :: d :: cs)
  | c :: cs =>
    if isDigit c then
      let (digits, rest) := moreDigits isDigit cs
      (c :: digits, rest)
    else ([], c :: cs)
  | [] => ([], [])

/-- One digit or more. -/
def digits? (isDigit : Char → Bool) (s : List Char) : Option (List Char × List Char) :=
  match s with
  | c :: cs =>
    if isDigit c then
      let (digits, rest) := moreDigits isDigit cs
      some (c :: digits, rest)
    else none
  | [] => none

/-- The base that a letter behind a zero stands for. -/
def baseOf? : Char → Option Nat
  | 'x' => some 16
  | 'o' => some 8
  | 'b' => some 2
  | _ => none

/-- Whether a character is a digit of a base. -/
def isDigitOf (base : Nat) (c : Char) : Bool :=
  match hexValue? c with
  | some n => n < base
  | none => false

/-- An integer written in another base than ten. -/
def based? (s : List Char) : Option (Int × List Char) :=
  match s with
  | '0' :: letter :: cs => do
    let base ← baseOf? letter
    let (digits, rest) ← digits? (isDigitOf base) cs
    let values ← digits.mapM hexValue?
    some ((ofDigits base values : Nat), rest)
  | _ => none

/-- The digits in front of a point: a lone zero, or digits that start with another one. -/
def whole? (s : List Char) : Option (List Char × List Char) :=
  match s with
  | '0' :: cs => some (['0'], cs)
  | _ => digits? Char.isDigit s

/-- The fraction of a number, with its point. -/
def fractionText (s : List Char) : List Char × List Char :=
  match s with
  | '.' :: cs =>
    match digits? Char.isDigit cs with
    | some (digits, rest) => ('.' :: digits, rest)
    | none => ([], s)
  | _ => ([], s)

/-- The sign in front of a number. -/
def signText : List Char → List Char × List Char
  | '+' :: cs => (['+'], cs)
  | '-' :: cs => (['-'], cs)
  | cs => ([], cs)

/-- The exponent of a number, with its letter and sign. -/
def exponentText (s : List Char) : List Char × List Char :=
  match s with
  | e :: cs =>
    let (sign, rest) := signText cs
    match if e == 'e' || e == 'E' then digits? Char.isDigit rest else none with
    | some (digits, rest) => (e :: sign ++ digits, rest)
    | none => ([], s)
  | [] => ([], s)

/-- A decimal number: an integer unless it has a fraction or an exponent. -/
def decimal? (s : List Char) : Option (Except Error (Datum × List Char)) := do
  let (sign, rest) := signText s
  let negative := sign == ['-']
  let (whole, rest) ← whole? rest
  let (fraction, rest) := fractionText rest
  let (exponent, rest) := exponentText rest
  if fraction.isEmpty && exponent.isEmpty then
    if whole.length > Text.maxDigits then some (.error .longInteger)
    else
      let n : Int := ofDigits 10 (Decimal.digitValues whole)
      some (.ok (.int (if negative then -n else n), rest))
  else
    let x ← Decimal.readUnsigned? negative (whole ++ fraction ++ exponent)
    some (.ok (.float x, rest))

/-- The words that stand for values. -/
def wordValues : List (String × Datum) :=
  [("true", .bool true), ("false", .bool false),
    ("inf", .float (Double.infinity false)), ("+inf", .float (Double.infinity false)),
    ("-inf", .float (Double.infinity true)),
    ("nan", .float Double.nan), ("+nan", .float Double.nan), ("-nan", .float Double.nan)]

/-- A word that stands for a value. -/
def word? (s : List Char) : Option (Datum × List Char) :=
  wordValues.findSome? fun (word, d) => (afterLiteral? word s).map fun rest => (d, rest)

/-- A value that is neither a string nor has parts. -/
def readPlain : Reader Datum := fun s =>
  match readMoment? s with
  | some found => found.map fun (m, rest) => (.moment m, rest)
  | none =>
    match based? s with
    | some (n, rest) => .ok (.int n, rest)
    | none =>
      match decimal? s with
      | some found => found
      | none =>
        match word? s with
        | some found => .ok found
        | none => .error .malformed

end Toml
end Atoll
