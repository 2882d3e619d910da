import Atoll.Markup.Name
import Atoll.Position
import Atoll.Text.Blank

/-!
# Document trees

A document is a `Fragment`: a list of nodes.  `Node.walk` lists a node and everything below it in
document order.
-/

set_option autoImplicit false

namespace Atoll
namespace Markup

/-- The value of an attribute: a text, or a flag, `true` for a bare attribute and `false` for one
that is left out. -/
inductive AttrValue where
  | text (s : String)
  | flag (b : Bool)
  deriving DecidableEq, Repr, Inhabited

/-- An attribute of a tag.  `directive` is the hydration mode that its name asks for; `expression`
marks a brace value, which is kept with its braces. -/
structure Attr where
  name : String
  value : AttrValue
  span : Span
  directive : Option String
  expression : Bool
  deriving DecidableEq, Repr, Inhabited

namespace Attr

/-- The expression in a brace value, empty for every other value. -/
def code (a : Attr) : String :=
  match a.expression, a.value with
  | true, .text s => String.ofList (Text.trim (s.toList.drop 1).dropLast)
  | _, _ => ""

end Attr

/-- A node of a document. -/
inductive Node where
  /-- Literal content, not escaped. -/
  | text (value : String) (span : Span)
  /-- A brace placeholder. -/
  | expression (code : String) (span : Span) (incomplete : Bool)
  /-- Markup that is passed on as it is. -/
  | raw (value : String) (span : Span)
  /-- The script between the fences. -/
  | frontmatter (code : String) (span : Span)
  /-- A plain element. -/
  | element (tag : String) (attrs : List Attr) (children : List Node) (selfClosing : Bool)
      (span : Span)
  /-- A component, whose tag starts with an upper-case character. -/
  | component (tag : String) (attrs : List Attr) (children : List Node) (selfClosing : Bool)
      (span : Span)
  /-- A list of nodes. -/
  | fragment (children : List Node) (span : Span)
  deriving Repr, Inhabited

/-- A document, or a part of one. -/
structure Fragment where
  children : List Node
  span : Span
  deriving Repr, Inhabited

namespace Node

/-- The place of a node. -/
def span : Node → Span
  | .text _ s => s
  | .expression _ s _ => s
  | .raw _ s => s
  | .frontmatter _ s => s
  | .element _ _ _ _ s => s
  | .component _ _ _ _ s => s
  | .fragment _ s => s

/-- The nodes directly below a node. -/
def children : Node → List Node
  | .element _ _ children _ _ => children
  | .component _ _ children _ _ => children
  | .fragment children _ => children
  | _ => []

/-- The attributes of a node. -/
def attrs : Node → List Attr
  | .element _ attrs _ _ _ => attrs
  | .component _ attrs _ _ _ => attrs
  | _ => []

mutual

/-- A node and all nodes below it, in document order. -/
def walk : Node → List Node
  | .text value s => [.text value s]
  | .expression code s incomplete => [.expression code s incomplete]
  | .raw value s => [.raw value s]
  | .frontmatter code s => [.frontmatter code s]
  | .element tag attrs children selfClosing s =>
    .element tag attrs children selfClosing s :: walkAll children
  | .component tag attrs children selfClosing s =>
    .component tag attrs children selfClosing s :: walkAll children
  | .fragment children s => .fragment children s :: walkAll children

/-- The nodes of a list and all nodes below them, in document order. -/
def walkAll : List Node → List Node
  | [] => []
  | n :: ns => walk n ++ walkAll ns

end

theorem mem_walk_self (n : Node) : n ∈ n.walk := by
  cases n <;> simp [walk]

theorem mem_walkAll {n : Node} {ns : List Node} : n ∈ walkAll ns ↔ ∃ m ∈ ns, n ∈ m.walk := by
  induction ns with
  | nil => simp [walkAll]
  | cons m ns ih => simp [walkAll, ih]

/-- Whether a node is the script of a document. -/
def isFrontmatter : Node → Bool
  | .frontmatter _ _ => true
  | _ => false

/-- Whether a node is text or a placeholder, which stay on one line. -/
def isInline : Node → Bool
  | .text _ _ => true
  | .expression _ _ _ => true
  | _ => false

/-- The first hydration directive of a component. -/
def directive? : Node → Option Attr
  | .component _ attrs _ _ _ => attrs.find? (·.directive.isSome)
  | _ => none

end Node

namespace Fragment

/-- The fragment as a node. -/
def toNode (f : Fragment) : Node :=
  .fragment f.children f.span

/-- The script of a document, which is its first node if it has one. -/
def frontmatter? (f : Fragment) : Option (String × Span) :=
  match f.children with
  | .frontmatter code span :: _ => some (code, span)
  | _ => none

/-- The document without its script. -/
def template (f : Fragment) : Fragment :=
  ⟨f.children.filter (!·.isFrontmatter), f.span⟩

/-- Whether some component of the document asks for hydration. -/
def hasClientDirectives (f : Fragment) : Bool :=
  f.toNode.walk.any (·.directive?.isSome)

end Fragment

end Markup
end Atoll
