import Atoll.Markup.Token
import Atoll.Markup.Name
import Atoll.Text.Blank
import Atoll.Text.Search

/-!
# Reading tokens

`tokenize` reads every text: what starts no tag and no placeholder is ordinary text, and inside an
opening tag whatever is no attribute is passed over.  A cursor holds the rest of the text and its
position; each step looks at the rest, says how many characters it takes (`Step.length`) and which
tokens stand there.

The scanners (`braces`, `comment`, `closingTag?`, …) work on plain lists of characters and return
what they take, so that the text of a token is always a slice of the source.
-/

set_option autoImplicit false

namespace Atoll
namespace Markup

open Text

/-! ## Scanners -/

/-- The white space allowed inside tags. -/
def isTagSpace (c : Char) : Bool :=
  c == ' ' || c == '\t' || c == '\n'

/-- The white space allowed between an attribute name and its equals sign. -/
def isInlineSpace (c : Char) : Bool :=
  c == ' ' || c == '\t'

/-- The content of a placeholder, read from behind its opening brace with `depth` inner braces
open, and whether the matching brace was found.  A closing tag ends an unfinished placeholder. -/
def braces : Nat → List Char → List Char × Bool
  | _, [] => ([], false)
  | _, '<' :: '/' :: _ => ([], false)
  | depth, '{' :: cs => let (content, closed) := braces (depth + 1) cs; ('{' :: content, closed)
  | 0, '}' :: _ => ([], true)
  | depth + 1, '}' :: cs => let (content, closed) := braces depth cs; ('}' :: content, closed)
  | depth, c :: cs => let (content, closed) := braces depth cs; (c :: content, closed)

/-- The length of a comment that starts here: up to its end mark, or to the end of the text. -/
def commentLength (s : List Char) : Nat :=
  match find? "-->".toList (s.drop 4) with
  | some i => 4 + i + 3
  | none => s.length

/-- The length of a stretch of ordinary text.  Its first character is taken whatever it is. -/
def textLength (s : List Char) : Nat :=
  1 + ((s.drop 1).takeWhile fun c => c != '<' && c != '{').length

/-- The name in a closing tag that starts here, and the length of the tag. -/
def closingTag? (s : List Char) : Option (List Char × Nat) :=
  match s with
  | '<' :: '/' :: cs =>
    let name := cs.takeWhile isTagChar
    let space := (cs.drop name.length).takeWhile isTagSpace
    match name, cs.drop (name.length + space.length) with
    | _ :: _, '>' :: _ => some (name, 2 + name.length + space.length + 1)
    | _, _ => none
  | _ => none

/-- Whether a character stands for a letter of a raw-text tag name when case is ignored.  Besides
the other case of an ASCII letter, the long s matches `s` and the dotted and dotless i match
`i`. -/
def matchesLetter (letter c : Char) : Bool :=
  c.toLower == letter.toLower
    || (letter.toLower == 's' && c == 'ſ')
    || (letter.toLower == 'i' && (c == 'İ' || c == 'ı'))

/-- What follows `name` in a text that starts with it when case is ignored. -/
def afterName? : List Char → List Char → Option (List Char)
  | [], s => some s
  | n :: ns, c :: cs => if matchesLetter n c then afterName? ns cs else none
  | _ :: _, [] => none

/-- Whether a closing tag for a raw-text element starts here. -/
def closesRawText (name s : List Char) : Bool :=
  match s with
  | '<' :: '/' :: cs =>
    match afterName? name cs with
    | some rest => (rest.dropWhile isTagSpace).head? == some '>'
    | none => false
  | _ => false

/-- The length of the content of a raw-text element: up to its closing tag, or to the end. -/
def rawTextLength (name : List Char) : List Char → Nat
  | [] => 0
  | c :: cs => if closesRawText name (c :: cs) then 0 else 1 + rawTextLength name cs

/-- The length of a closing fence that starts here: three hyphens and nothing but spaces and tabs
up to the end of the line. -/
def fence? (s : List Char) : Option Nat :=
  match s with
  | '-' :: '-' :: '-' :: cs =>
    let space := cs.takeWhile isInlineSpace
    match cs.drop space.length with
    | [] => some (3 + space.length)
    | '\n' :: _ => some (3 + space.length)
    | _ => none
  | _ => none

/-- The text before the first closing fence, which stands at the start of a line, and the length
of the fence. -/
def frontmatter? : List Char → Option (List Char × Nat)
  | [] => none
  | '\n' :: cs =>
    match fence? cs with
    | some n => some (['\n'], n)
    | none => (frontmatter? cs).map fun (content, n) => ('\n' :: content, n)
  | c :: cs => (frontmatter? cs).map fun (content, n) => (c :: content, n)

/-- An unquoted attribute value: no blanks, quotes, brackets or equals signs, and a slash only
where it does not end the tag. -/
def unquoted : List Char → List Char
  | [] => []
  | '/' :: cs => if cs.head? == some '>' then [] else '/' :: unquoted cs
  | c :: cs => if isBlank c || "><\"'`=\x7b".toList.contains c then [] else c :: unquoted cs

/-! ## The cursor -/

/-- The rest of the text and where it starts. -/
structure Cursor where
  position : Position
  rest : List Char
  deriving Repr

namespace Cursor

/-- The cursor at the beginning of a text. -/
def ofText (s : List Char) : Cursor :=
  ⟨Position.first, s⟩

/-- The cursor `n` characters on. -/
def advance (c : Cursor) (n : Nat) : Cursor :=
  ⟨c.position.across (c.rest.take n), c.rest.drop n⟩

/-- The token that takes the next `n` characters. -/
def token (c : Cursor) (kind : TokenKind) (value : List Char) (n : Nat) (incomplete : Bool) :
    Token :=
  ⟨kind, String.ofList value, String.ofList (c.rest.take n), ⟨c.position, (c.advance n).position⟩,
    incomplete⟩

/-- The token that takes the next `n` characters as its value. -/
def slice (c : Cursor) (kind : TokenKind) (n : Nat) : Token :=
  c.token kind (c.rest.take n) n false

end Cursor

/-- Where the lexer stands: between tags, or among the attributes of an opening tag. -/
inductive Mode where
  | content
  | tag (name : List Char)
  deriving DecidableEq, Repr

/-- What one step takes: the tokens it found, the characters it used up, and how to go on. -/
structure Step where
  tokens : List Token
  length : Nat
  mode : Mode

/-! ## Steps -/

/-- Takes ordinary text. -/
def textStep (c : Cursor) : Step :=
  let n := textLength c.rest
  ⟨[c.slice .text n], n, .content⟩

/-- One step between tags. -/
def contentStep (c : Cursor) : Step :=
  match c.rest with
  | '{' :: cs =>
    let (content, closed) := braces 0 cs
    let n := 1 + content.length + (if closed then 1 else 0)
    ⟨[c.token .expression content n (!closed)], n, .content⟩
  | '<' :: '/' :: _ =>
    match closingTag? c.rest with
    | some (name, n) => ⟨[c.token .tagClose name n false], n, .content⟩
    | none => textStep c
  | '<' :: cs =>
    let name := cs.takeWhile isTagChar
    if !name.isEmpty then
      let n := 1 + name.length
      ⟨[c.token .tagOpen name n false], n, .tag name⟩
    else if "<!--".toList.isPrefixOf c.rest then
      let n := commentLength c.rest
      ⟨[c.slice .text n], n, .content⟩
    else textStep c
  | _ => textStep c

/-- The value of an attribute, read from behind its equals sign, and its length. -/
def valueToken (c : Cursor) : Token × Nat :=
  match c.rest with
  | '{' :: cs =>
    let (content, closed) := braces 0 cs
    let n := 1 + content.length + (if closed then 1 else 0)
    (c.token .attrValue ('{' :: content ++ ['}']) n (!closed), n)
  | q :: cs =>
    if q == '\'' || q == '"' then
      let inner := cs.takeWhile (· != q)
      if inner.length < cs.length then
        let n := inner.length + 2
        (c.slice .attrValue n, n)
      else
        let n := cs.length + 1
        (c.token .attrValue (c.rest.take n) n true, n)
    else
      let n := (unquoted c.rest).length
      (c.slice .attrValue n, n)
  | [] => (c.slice .attrValue 0, 0)

/-- An attribute name and, behind an equals sign, its value; and the length of both. -/
def attributeTokens (c : Cursor) : List Token × Nat :=
  let name := (c.rest.takeWhile isAttrChar).length
  let nameToken := c.slice .attrName name
  let gap := ((c.rest.drop name).takeWhile isInlineSpace).length
  match c.rest.drop (name + gap) with
  | '=' :: cs =>
    let before := name + gap + 1 + (cs.takeWhile isTagSpace).length
    let (value, n) := valueToken (c.advance before)
    ([nameToken, value], before + n)
  | _ => ([nameToken], name)

/-- One step among the attributes of an opening tag.  The `>` behind the attributes of a raw-text
element takes the content of the element with it. -/
def tagStep (name : List Char) (start : Cursor) : Step :=
  let space := (start.rest.takeWhile isTagSpace).length
  let c := start.advance space
  match c.rest with
  | [] => ⟨[], space, .tag name⟩
  | '/' :: '>' :: _ => ⟨[c.slice .tagSelfClose 2], space + 2, .content⟩
  | '>' :: cs =>
    let inner := if isRawTextElement (String.ofList name) then rawTextLength name cs else 0
    let content := if inner == 0 then [] else [(c.advance 1).slice .text inner]
    ⟨c.slice .tagClose 1 :: content, space + 1 + inner, .content⟩
  | '{' :: cs =>
    let (content, closed) := braces 0 cs
    ⟨[], space + 1 + content.length + (if closed then 1 else 0), .tag name⟩
  | ch :: _ =>
    if isAttrChar ch then
      let (tokens, n) := attributeTokens c
      ⟨tokens, space + n, .tag name⟩
    else ⟨[], space + 1, .tag name⟩

/-- One step at a cursor. -/
def Mode.step : Mode → Cursor → Step
  | .content, c => contentStep c
  | .tag name, c => tagStep name c

theorem Cursor.length_advance_lt (c : Cursor) (n : Nat) (h : c.rest ≠ []) :
    (c.advance (max n 1)).rest.length < c.rest.length := by
  have hlen : 0 < c.rest.length := List.length_pos_iff.mpr h
  simp only [Cursor.advance, List.length_drop]
  omega

/-- The tokens from a cursor on, with the end mark behind them. -/
def lexFrom (mode : Mode) (c : Cursor) : List Token :=
  if _h : c.rest = [] then [Token.eofAt c.position]
  else
    let step := mode.step c
    step.tokens ++ lexFrom step.mode (c.advance (max step.length 1))
termination_by c.rest.length
decreasing_by exact c.length_advance_lt _ _h

/-- The script between the fences at the top of a document, if there is one, and its length. -/
def frontmatterStep? (c : Cursor) : Option (Token × Nat) :=
  match after? "---".toList c.rest with
  | some cs =>
    (frontmatter? cs).map fun (content, fence) =>
      let n := 3 + content.length + fence
      (c.token .frontmatter (trim content) n false, n)
  | none => none

/-- The tokens of a text whose line ends are plain newlines. -/
def lex (s : List Char) : List Token :=
  let c := Cursor.ofText s
  match frontmatterStep? c with
  | some (token, n) => token :: lexFrom .content (c.advance n)
  | none => lexFrom .content c

/-- The tokens of a document.  Windows line ends are read as newlines. -/
def tokenize (source : String) : List Token :=
  lex (unifyNewlines source.toList)

end Markup
end Atoll
