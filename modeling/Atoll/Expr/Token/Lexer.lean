import Atoll.Expr.Token
import Atoll.Text.Word

/-!
# Reading the tokens of an expression

A scanner looks at the text from its first character on and says what stands there and how many
characters it takes.  Template texts are cut into pieces by counting braces, without a look at the
expressions inside.
-/

set_option autoImplicit false

namespace Atoll
namespace Expr

open Text

/-! ## Escapes -/

/-- The character with the given code.  There is none beyond the last code point, and a surrogate is
read as U+FFFD, also next to the one that would complete it. -/
def codePoint (n : Nat) : Except Fault Char :=
  if n ≤ 0x10ffff then .ok (scalar n)
  else .error (.trouble (if n ≤ 0x7fffffff then .noCharacter else .largeCode))

/-- What a single character behind a backslash stands for: a control character, nothing for a line
end, and else itself. -/
def escapedChar (c : Char) : List Char :=
  match c with
  | 'n' => ['\n']
  | 't' => ['\t']
  | 'r' => ['\r']
  | 'b' => ['\x08']
  | 'f' => ['\x0c']
  | 'v' => ['\x0b']
  | '0' => ['\x00']
  | '\n' => []
  | _ => [c]

/-- The digits between the braces of a long escape that starts here. -/
def bracedHex? (s : List Char) : Option (List Char) :=
  match s with
  | 'u' :: '{' :: cs =>
    let digits := cs.takeWhile isHex
    if !digits.isEmpty && (cs.drop digits.length).head? == some '}' then some digits else none
  | _ => none

/-- The digits of an escape with exactly `count` of them behind a letter. -/
def countedHex? (letter : Char) (count : Nat) (s : List Char) : Option (List Char) :=
  match s with
  | c :: cs =>
    let digits := cs.take count
    if c == letter && digits.length == count && digits.all isHex then some digits else none
  | [] => none

/-- The number that hexadecimal digits spell. -/
def hexNumber (digits : List Char) : Nat :=
  ofDigits 16 (digits.filterMap hexValue?)

/-- What stands behind a backslash: the characters it means, and how many it takes.  A backslash at
the end means itself. -/
def escapeAt (s : List Char) : Except Fault (List Char × Nat) :=
  match bracedHex? s with
  | some digits => (codePoint (hexNumber digits)).map fun c => ([c], digits.length + 3)
  | none =>
    match (countedHex? 'u' 4 s).orElse fun _ => countedHex? 'x' 2 s with
    | some digits => (codePoint (hexNumber digits)).map fun c => ([c], digits.length + 1)
    | none =>
      match s with
      | c :: _ => .ok (escapedChar c, 1)
      | [] => .ok (['\\'], 0)

/-- A text with its escapes replaced.  `skip` counts the characters of the current escape still to
be passed over. -/
def unescapeFrom : Nat → List Char → Except Fault (List Char)
  | _, [] => .ok []
  | skip + 1, _ :: cs => unescapeFrom skip cs
  | 0, c :: cs => do
    if c == '\\' then
      let (meant, taken) ← escapeAt cs
      .ok (meant ++ (← unescapeFrom taken cs))
    else
      .ok (c :: (← unescapeFrom 0 cs))

/-- A text with its escapes replaced. -/
def unescape (s : List Char) : Except Fault String :=
  (unescapeFrom 0 s).map String.ofList

/-! ## Template texts -/

/-- Where a template scan stands: in the text, or in an expression with so many inner braces
open. -/
inductive TemplateMode where
  | text
  | code (depth : Nat)
  deriving DecidableEq, Repr

/-- The pieces of a template, text and code in turn, and what follows its closing mark if it has
one. -/
abbrev Pieces := List (List Char) × Option (List Char)

/-- The pieces with a character put in front of the first one. -/
def Pieces.push (c : Char) (p : Pieces) : Pieces :=
  match p with
  | ([], rest) => ([[c]], rest)
  | (piece :: more, rest) => ((c :: piece) :: more, rest)

/-- The pieces with an empty one in front. -/
def Pieces.cut (p : Pieces) : Pieces :=
  ([] :: p.1, p.2)

/-- The pieces of a template from here on. -/
def pieces : TemplateMode → List Char → Pieces
  | .text, '\x60' :: cs => ([[]], some cs)
  | .text, '\\' :: c :: cs => ((pieces .text cs).push c).push '\\'
  | .text, '$' :: '{' :: cs => (pieces (.code 0) cs).cut
  | .code 0, '}' :: cs => (pieces .text cs).cut
  | .code (depth + 1), '}' :: cs => (pieces (.code depth) cs).push '}'
  | .code depth, '{' :: cs => (pieces (.code (depth + 1)) cs).push '{'
  | mode, c :: cs => (pieces mode cs).push c
  | _, [] => ([[]], none)

/-- The texts of a template with their escapes replaced, and the code between them as it is. -/
def templateParts : List (List Char) → Except Fault (List (String × String))
  | code :: text :: more => do
    let text ← unescape text
    .ok ((String.ofList code, text) :: (← templateParts more))
  | _ => .ok []

/-- The template behind an opening mark and how many characters it takes with that mark.  A missing
closing mark is found out only after the escapes of all complete texts. -/
def scanTemplate (source : String) (s : List Char) : Except Fault (Lexeme × Nat) :=
  match pieces .text s with
  | (head :: more, some rest) => do
    let head ← unescape head
    .ok (.template head (← templateParts more), 1 + (s.length - rest.length))
  | (ps, _) => do
    match ps.dropLast with
    | head :: more =>
      let _ ← unescape head
      let _ ← templateParts more
      .error (.about source .unterminatedTemplate)
    | [] => .error (.about source .unterminatedTemplate)

/-! ## Numbers, strings, names and symbols -/

/-- The length of an exponent that starts here. -/
def exponentLength (s : List Char) : Nat :=
  match s with
  | e :: cs =>
    if e == 'e' || e == 'E' then
      let sign := match cs with
        | '+' :: _ => 1
        | '-' :: _ => 1
        | _ => 0
      let digits := ((cs.drop sign).takeWhile isDecimal).length
      if digits == 0 then 0 else 1 + sign + digits
    else 0
  | [] => 0

/-- The length of a decimal number that starts here: digits, a point and more digits, or a point
and digits; then maybe an exponent. -/
def numberLength? (s : List Char) : Option Nat :=
  let whole := (s.takeWhile isDecimal).length
  let (point, fraction) := match s.drop whole with
    | '.' :: cs => (1, (cs.takeWhile isDecimal).length)
    | _ => (0, 0)
  if whole == 0 && fraction == 0 then none
  else
    let digits := whole + point + fraction
    some (digits + exponentLength (s.drop digits))

/-- The digits of a hexadecimal number that starts here. -/
def hexDigits? (s : List Char) : Option (List Char) :=
  match s with
  | '0' :: x :: cs =>
    let digits := cs.takeWhile isHex
    if (x == 'x' || x == 'X') && !digits.isEmpty then some digits else none
  | _ => none

/-- The text between quotes, escapes included, read from behind the opening quote.  A line end may
not stand in it. -/
def quotedBody? (quote : Char) : List Char → Option (List Char)
  | '\\' :: c :: cs =>
    if c == '\n' then none else (quotedBody? quote cs).map fun body => '\\' :: c :: body
  | c :: cs =>
    if c == quote then some []
    else if c == '\n' || c == '\\' then none
    else (quotedBody? quote cs).map (c :: ·)
  | [] => none

/-- The symbol that starts here.  The mark of optional access is none in front of a digit. -/
def symbol? (s : List Char) : Option Symbol :=
  Symbol.all.find? fun symbol =>
    match afterLiteral? symbol.text s with
    | some rest => !(symbol == .optional && (rest.head?.any isDecimal))
    | none => false

/-- What a name may go on with. -/
def isNamePart (c : Char) : Bool :=
  isNameStart c || c.isDigit

/-- What starts at the first character, if it is a token at all, and how many characters it
takes. -/
def scan (source : String) (c : Char) (cs : List Char) : Except Fault (Option Lexeme × Nat) :=
  let s := c :: cs
  if c == '\x60' then (scanTemplate source cs).map fun (t, n) => (some t, n)
  else if isBlank c then .ok (none, (s.takeWhile isBlank).length)
  else
    match hexDigits? s with
    | some digits => .ok (some (.number (.int (hexNumber digits))), 2 + digits.length)
    | none =>
      match numberLength? s with
      | some n =>
        let value := (Decimal.readDouble? (s.take n)).elim Number.nan Number.collapse
        .ok (some (.number value), n)
      | none =>
        match if c == '"' || c == '\'' then quotedBody? c cs else none with
        | some body => (unescape body).map fun t => (some (.string t), body.length + 2)
        | none =>
          if isNameStart c then
            let name := s.takeWhile isNamePart
            .ok (some (.name (String.ofList name)), name.length)
          else
            match symbol? s with
            | some symbol => .ok (some (.symbol symbol), symbol.text.length)
            | none => .error (.about source (.unexpectedCharacter c))

/-- The tokens of the rest of a source, which starts at the given offset. -/
def lexFrom (source : String) (offset : Nat) : List Char → Except Fault (List Token)
  | [] => .ok []
  | c :: cs => do
    let (lexeme, taken) ← scan source c cs
    let rest ← lexFrom source (offset + max taken 1) (cs.drop (taken - 1))
    .ok (lexeme.elim rest fun t => ⟨t, offset⟩ :: rest)
  termination_by s => s.length
  decreasing_by simp only [List.length_cons, List.length_drop]; omega

/-- The tokens of an expression. -/
def lex (source : String) : Except Fault (List Token) :=
  lexFrom source 0 source.toList

end Expr
end Atoll
