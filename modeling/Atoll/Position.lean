/-!
# Positions and spans

A position counts lines and columns from one and characters from zero.  Walking over a text moves
a position one character at a time (`Position.next`); `Position.across` is the position after a
whole text.
-/

set_option autoImplicit false

namespace Atoll

/-- A place in a text: line and column from one, characters before it from zero.  A host may hand
in any integers; the positions the lexer makes are those of characters. -/
structure Position where
  line : Int
  column : Int
  offset : Int
  deriving DecidableEq, Repr, Inhabited

/-- A stretch of text, from a position up to another. -/
structure Span where
  start : Position
  stop : Position
  deriving DecidableEq, Repr, Inhabited

namespace Position

/-- The beginning of every text. -/
def first : Position :=
  ⟨1, 1, 0⟩

/-- The position behind a character that stands at `p`. -/
def next (p : Position) (c : Char) : Position :=
  if c == '\n' then ⟨p.line + 1, 1, p.offset + 1⟩ else ⟨p.line, p.column + 1, p.offset + 1⟩

/-- The position behind a text that starts at `p`. -/
def across (p : Position) (s : List Char) : Position :=
  s.foldl next p

/-- The position of the character with the given offset in a text. -/
def ofOffset (s : List Char) (offset : Nat) : Position :=
  first.across (s.take offset)

end Position

namespace Span

/-- The empty span at the beginning of the text, for nodes that carry no place of their own. -/
def empty : Span :=
  ⟨Position.first, Position.first⟩

end Span

end Atoll
