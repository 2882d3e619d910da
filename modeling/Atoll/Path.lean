import Atoll.Text.Search

/-!
# Paths of files

A path is an optional root and a list of names.  Empty names and single dots between slashes do not
count.
-/

set_option autoImplicit false

namespace Atoll

/-- A path: the slashes it starts with, and its names. -/
structure Path where
  root : String
  names : List String
  deriving DecidableEq, Repr, Inhabited

namespace Path

/-- The root that a text starts with: one slash, or two if there are exactly two. -/
def rootOf : List Char → String
  | '/' :: '/' :: '/' :: _ => "/"
  | '/' :: '/' :: _ => "//"
  | '/' :: _ => "/"
  | _ => ""

/-- The path that a text spells. -/
def ofText (s : String) : Path :=
  let pieces := (Text.cutWhere (· == '/') s.toList).map String.ofList
  ⟨rootOf s.toList, pieces.filter fun p => p != "" && p != "."⟩

/-- A path as text; the empty path is a single dot. -/
def text (p : Path) : String :=
  if p.root.isEmpty && p.names.isEmpty then "." else p.root ++ "/".intercalate p.names

/-- The last name of a path, empty if it has none. -/
def name (p : Path) : String :=
  p.names.getLast?.getD ""

/-- The path without its last name. -/
def parent (p : Path) : Path :=
  ⟨p.root, p.names.dropLast⟩

/-- The path with another name behind it. -/
def child (p : Path) (name : String) : Path :=
  ⟨p.root, p.names ++ [name]⟩

/-- The path with another last name. -/
def withName (p : Path) (name : String) : Path :=
  p.parent.child name

/-- The ending of a name with its dot.  A dot at the start or the end of a name starts none. -/
def endingOf (name : List Char) : List Char :=
  match Text.findLast? ['.'] name with
  | some i => if 0 < i && i + 1 < name.length then name.drop i else []
  | none => []

/-- The ending of the last name with its dot. -/
def ending (p : Path) : String :=
  String.ofList (endingOf p.name.toList)

end Path
end Atoll
