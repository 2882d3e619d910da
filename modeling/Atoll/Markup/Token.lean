import Atoll.Position

/-!
# Tokens of a document

A document is read as a flat sequence of tokens: text between tags, the script between the fences,
opening tags with their attributes, closing tags and brace placeholders.  Each token keeps the
text it was read from and where that text stands.
-/

set_option autoImplicit false

namespace Atoll
namespace Markup

/-- What a token is.  Attribute names and values only occur inside an opening tag. -/
inductive TokenKind where
  | text
  | frontmatter
  | tagOpen
  | tagClose
  | tagSelfClose
  | attrName
  | attrValue
  | expression
  | eof
  deriving DecidableEq, Repr, Inhabited

/-- A token with its value, the text it was read from and the place of that text.  `incomplete`
marks a placeholder or a quoted value whose closing delimiter is missing. -/
structure Token where
  kind : TokenKind
  value : String
  raw : String
  span : Span
  incomplete : Bool
  deriving DecidableEq, Repr, Inhabited

namespace Token

/-- Whether the token is the `>` behind the attributes of an opening tag. -/
def endsOpenTag (t : Token) : Bool :=
  t.kind == .tagClose && t.value == ">"

/-- Whether the token is a closing tag. -/
def isClosingTag (t : Token) : Bool :=
  t.kind == .tagClose && t.value != ">"

/-- The end mark at a position. -/
def eofAt (p : Position) : Token :=
  ⟨.eof, "", "", ⟨p, p⟩, false⟩

end Token

/-- The characters of a tag name: ASCII letters and digits, and the hyphen. -/
def isTagChar (c : Char) : Bool :=
  c.isAlphanum || c == '-'

/-- The characters of an attribute name: those of a tag name, the colon and the at sign. -/
def isAttrChar (c : Char) : Bool :=
  isTagChar c || c == ':' || c == '@'

end Markup
end Atoll
