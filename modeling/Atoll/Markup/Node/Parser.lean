import Atoll.Markup.Diagnostic
import Atoll.Markup.Node
import Atoll.Markup.Token.Lexer

/-!
# From tokens to trees

`parseTokens` reads any list of tokens and always returns a tree; whatever is wrong becomes a
diagnostic.  The reader keeps a stack of open elements, innermost first (`Frame`), and goes
through the tokens once.  A closing tag closes open elements until it meets the one it names, and
reports each one it had to close on the way.

Elements may be nested to any depth: the tree is built level by level, and no bound on how many
levels a machine can go down is part of the reader.
-/

set_option autoImplicit false

namespace Atoll
namespace Markup

/-- A tree with the diagnostics found while it was read. -/
structure ParseResult where
  tree : Fragment
  diagnostics : List Diagnostic
  deriving Repr, Inhabited

namespace ParseResult

/-- The diagnostics that are errors. -/
def errors (r : ParseResult) : List Diagnostic :=
  r.diagnostics.filter (·.severity == .error)

/-- The diagnostics that are warnings. -/
def warnings (r : ParseResult) : List Diagnostic :=
  r.diagnostics.filter (·.severity == .warning)

end ParseResult

/-- An opening tag with its attributes. -/
structure Head where
  token : Token
  attrs : List Attr
  deriving Repr, Inhabited

/-- An open element: its opening tag, and its children so far, last one first. -/
structure Frame where
  head : Head
  children : List Node
  deriving Repr, Inhabited

/-- Where the reader stands: between tags, among the attributes of an opening tag, or behind an
attribute name that may still get a value. -/
inductive Place where
  | content
  | tag (head : Head)
  | value (head : Head) (name : Token)
  deriving Repr, Inhabited

/-- What the reader knows between two tokens: the end of the last token, where it stands, the open
elements, innermost first, the nodes outside all of them, last one first, and the diagnostics, last
one first. -/
structure Reader where
  last : Position
  place : Place
  frames : List Frame
  nodes : List Node
  found : List Diagnostic
  deriving Repr, Inhabited

/-- A node in front of a list of nodes that is kept backwards.  Adjacent texts become one. -/
def pushNode (node : Node) (nodes : List Node) : List Node :=
  match node, nodes with
  | .text value span, .text before first :: rest =>
    .text (before ++ value) ⟨first.start, span.stop⟩ :: rest
  | _, _ => node :: nodes

/-- The element that an opening tag makes with the given children, ending at a position. -/
def Head.close (h : Head) (children : List Node) (selfClosing : Bool) (stop : Position) : Node :=
  let span := ⟨h.token.span.start, stop⟩
  if isComponentName h.token.value then
    .component h.token.value h.attrs children selfClosing span
  else .element h.token.value h.attrs children selfClosing span

/-- The attribute of a name token and, if there is one, a value token; and what is wrong with the
value. -/
def attrOf (name : Token) (value? : Option Token) : Attr × Option Diagnostic :=
  let directive := directiveName? name.value
  match value? with
  | none => (⟨name.value, .flag true, name.span, directive, false⟩, none)
  | some value =>
    let attr (text : List Char) (expression : Bool) : Attr :=
      ⟨name.value, .text (String.ofList text), ⟨name.span.start, value.span.stop⟩, directive,
        expression⟩
    let ifIncomplete (problem : Problem) : Option Diagnostic :=
      if value.incomplete then some ⟨problem, value.span⟩ else none
    match value.value.toList with
    | [] => (attr [] false, none)
    | '{' :: cs => (attr ('{' :: cs) true, ifIncomplete (.unclosedBraceValue name.value))
    | c :: cs =>
      if c == '\'' || c == '"' then
        (attr (if value.incomplete then cs else cs.dropLast) false,
          ifIncomplete (.unclosedQuote name.value))
      else (attr (c :: cs) false, none)

namespace Reader

/-- The reader before the first token. -/
def start (tokens : List Token) : Reader :=
  ⟨((tokens.head?.map (·.span.start)).getD Position.first), .content, [], [], []⟩

/-- Notes a problem. -/
def note (r : Reader) (problem : Problem) (span : Span) : Reader :=
  { r with found := ⟨problem, span⟩ :: r.found }

/-- Moves behind a token. -/
def past (r : Reader) (t : Token) : Reader :=
  { r with last := t.span.stop }

/-- Adds a node to the innermost open element. -/
def add (r : Reader) (node : Node) : Reader :=
  match r.frames with
  | f :: fs => { r with frames := ⟨f.head, pushNode node f.children⟩ :: fs }
  | [] => { r with nodes := pushNode node r.nodes }

/-- Closes the innermost open element where the reader stands. -/
def closeFrame (r : Reader) : Reader :=
  match r.frames with
  | f :: fs => { r with frames := fs }.add (f.head.close f.children.reverse false r.last)
  | [] => r

/-- Closes elements for a closing tag, given the open ones: every element that the tag does not
name is reported and closed before the tag, the one it names is closed behind it.  A tag that names
none is reported itself. -/
def closeTag (t : Token) : List Frame → Reader → Reader
  | [], r => (r.note (.unmatchedClosingTag t.value) t.span).past t
  | f :: fs, r =>
    if f.head.token.value == t.value then (r.past t).closeFrame
    else closeTag t fs (r.note (.mismatchedTag f.head.token.value t.value) t.span).closeFrame

/-- Closes all open elements, given from the innermost on, and reports each. -/
def closeAll : List Frame → Reader → Reader
  | [], r => r
  | f :: fs, r =>
    closeAll fs (r.note (.unclosedTag f.head.token.value) f.head.token.span).closeFrame

/-- Finishes an opening tag with `>`: a void element is complete, any other is open now. -/
def openTag (r : Reader) (h : Head) : Reader :=
  if !isComponentName h.token.value && isVoidElement h.token.value then
    { r with place := .content }.add (h.close [] false r.last)
  else { r with place := .content, frames := ⟨h, []⟩ :: r.frames }

/-- Finishes an opening tag that has no content. -/
def selfClose (r : Reader) (h : Head) : Reader :=
  { r with place := .content }.add (h.close [] true r.last)

/-- Gives up on an opening tag that is not finished. -/
def abandon (r : Reader) (h : Head) : Reader :=
  (r.note (.unfinishedTag h.token.value) ⟨h.token.span.start, r.last⟩).selfClose h

/-- Adds an attribute to an opening tag.  A second directive is reported. -/
def addAttribute (r : Reader) (h : Head) (name : Token) (value? : Option Token) : Reader × Head :=
  let (attr, problem?) := attrOf name value?
  let again := attr.directive.isSome && h.attrs.any (·.directive.isSome)
  let duplicate : List Diagnostic :=
    if again then [⟨.duplicateDirective h.token.value attr.name, attr.span⟩] else []
  ({ r with found := duplicate ++ problem?.toList ++ r.found }, ⟨h.token, h.attrs ++ [attr]⟩)

/-- Reads a token between tags. -/
def readContent (r : Reader) (t : Token) : Reader :=
  match t.kind with
  | .text => (r.add (.text t.value t.span)).past t
  | .expression =>
    let r := if t.incomplete then r.note .unclosedExpression t.span else r
    (r.add (.expression (Text.strip t.value) t.span t.incomplete)).past t
  | .tagOpen => { r.past t with place := .tag ⟨t, []⟩ }
  | .tagClose => if t.isClosingTag then closeTag t r.frames r else r.past t
  | _ => r.past t

/-- Reads a token among the attributes of an opening tag.  A token that does not belong there ends
the tag. -/
def readTag (r : Reader) (h : Head) (t : Token) : Reader :=
  match t.kind with
  | .attrName => { r.past t with place := .value h t }
  | .tagSelfClose => (r.past t).selfClose h
  | _ => if t.endsOpenTag then (r.past t).openTag h else (r.abandon h).readContent t

/-- Reads a token. -/
def read (r : Reader) (t : Token) : Reader :=
  match r.place with
  | .content => r.readContent t
  | .tag h => r.readTag h t
  | .value h name =>
    if t.kind == .attrValue then
      let (r, h) := (r.past t).addAttribute h name (some t)
      { r with place := .tag h }
    else
      let (r, h) := r.addAttribute h name none
      r.readTag h t

/-- Gives up on an opening tag that the document ends in. -/
def endTag (r : Reader) : Reader :=
  match r.place with
  | .content => r
  | .tag h => r.abandon h
  | .value h name => let (r, h) := r.addAttribute h name none; r.abandon h

/-- Ends the document: everything that is still open is closed and reported. -/
def finish (r : Reader) : Reader :=
  let r := r.endTag
  closeAll r.frames r

end Reader

/-- The span from the first to the last node of a list. -/
def spanOf (nodes : List Node) : Span :=
  match nodes.head?, nodes.getLast? with
  | some first, some last => ⟨first.span.start, last.span.stop⟩
  | _, _ => Span.empty

/-- The reader behind the script at the top of a document, if there is one, and the tokens that
follow. -/
def Reader.begin (tokens : List Token) : Reader × List Token :=
  let start := Reader.start tokens
  match tokens with
  | t :: ts =>
    if t.kind == TokenKind.frontmatter then
      ({ start.past t with nodes := [Node.frontmatter t.value t.span] }, ts)
    else (start, t :: ts)
  | [] => (start, [])

/-- The tree of a list of tokens.  Tokens behind the first end mark do not count. -/
def parseTokens (tokens : List Token) : ParseResult :=
  let (start, rest) := Reader.begin tokens
  let reader := ((rest.takeWhile fun t => t.kind != .eof).foldl Reader.read start).finish
  let nodes := reader.nodes.reverse
  ⟨⟨nodes, spanOf nodes⟩, reader.found.reverse⟩

/-- The tree of a document. -/
def parse (source : String) : ParseResult :=
  parseTokens (tokenize source)

end Markup
end Atoll
