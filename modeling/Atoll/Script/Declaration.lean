import Atoll.Script.Statement

/-!
# Declarations

`plain?` takes away what only a type checker needs: exports, annotations and type clauses; a
statement that declares nothing but types or functions disappears.  What is left is a declaration if
it starts with one of the three words for it; `declarators` are the patterns it binds with their
initial values.
-/

set_option autoImplicit false

namespace Atoll
namespace Script

open Text

/-! ## Declarators -/

/-- A pattern and the source of its initial value, empty if there is none. -/
structure Declarator where
  pattern : String
  init : String
  deriving DecidableEq, Repr, Inhabited

/-- The length of the binding pattern at the start of a text: brackets, or a name. -/
def patternLength (s : List Char) : Nat :=
  match s with
  | c :: cs =>
    if c == '{' || c == '[' then bracketLength .outermost s
    else if isNameStart c then 1 + (cs.takeWhile isNameRest).length
    else 0
  | [] => 0

/-- What follows a pattern up to its equals sign: a mark that it is assigned later and a type are
passed over. -/
def afterTypeMark (s : List Char) : List Char :=
  let s := match s with
    | '!' :: rest => trimStart rest
    | _ => s
  match s with
  | ':' :: _ =>
    match findAssign? s with
    | some i => s.drop i
    | none => []
  | _ => s

/-- The initial value at the start of a text, and what follows it. -/
def initializer (s : List Char) : List Char × List Char :=
  match s with
  | '=' :: rest =>
    let length := (findTop? ',' s).getD s.length
    (trim (rest.take (length - 1)), s.drop length)
  | _ => ([], s)

/-- The declarators of a text without blanks in front.  `fuel` bounds their number. -/
def declaratorsFrom : Nat → List Char → List Declarator
  | 0, _ => []
  | fuel + 1, s =>
    let length := patternLength s
    if length == 0 then []
    else
      let (init, rest) := initializer (afterTypeMark (trimStart (s.drop length)))
      let declarator := ⟨String.ofList (s.take length), String.ofList init⟩
      match trimStart rest with
      | ',' :: rest => declarator :: declaratorsFrom fuel (trimStart rest)
      | _ => [declarator]

/-- The declarators of a text. -/
def declarators (s : List Char) : List Declarator :=
  let s := trim s
  declaratorsFrom s.length s

/-- A declarator as text. -/
def Declarator.text (d : Declarator) : String :=
  if d.init.isEmpty then d.pattern else d.pattern ++ " = " ++ d.init

/-- The word that starts a declaration with the blanks behind it, and what it declares. -/
def declaration? (s : List Char) : Option (List Char × List Char) :=
  ["const", "let", "var"].findSome? fun word =>
    (afterWord? word s).map fun rest => (s.take (s.length - rest.length), rest)

/-! ## Types -/

/-- The text behind the words for exports and ambient declarations.  `fuel` bounds their number. -/
def afterModifiers : Nat → List Char → List Char
  | 0, s => s
  | fuel + 1, s =>
    match (afterWord? "export" s).orElse fun _ => afterWord? "declare" s with
    | some rest => afterModifiers fuel rest
    | none => s

/-- Whether a statement only declares a type, a function or a class. -/
def isErased (s : List Char) : Bool :=
  let s := afterModifiers s.length s
  let functionText := (afterWord? "async" s).getD s
  (match afterWord? "type" s with
    | some rest => rest.head?.any isNameStart
    | none => false)
  || (afterWord? "interface" s).isSome
  || (match afterLiteral? "function" functionText with
    | some rest => atWordEnd rest
    | none => false)
  || (afterWord? "class" s).isSome
  || (afterWord? "enum" s).isSome

/-- The text without the word that exports it. -/
def afterExport (s : List Char) : List Char :=
  match afterWord? "export" s with
  | some rest => (afterWord? "default" rest).getD rest
  | none => s

/-- The text without all stretches that a scanner finds, from left to right.  `skip` counts the
characters of the current stretch still to be passed over. -/
def eraseFrom (length? : List Char → Option Nat) : Nat → List Char → List Char
  | _, [] => []
  | skip + 1, _ :: cs => eraseFrom length? skip cs
  | 0, c :: cs =>
    match length? (c :: cs) with
    | some n => eraseFrom length? (n - 1) cs
    | none => c :: eraseFrom length? 0 cs

/-- What follows at least one blank and a word with blanks behind it. -/
def afterSpacedWord? (word : String) (s : List Char) : Option (List Char) :=
  if s.head?.any isBlank then afterWord? word (trimStart s) else none

/-- The length of a clause that freezes a value. -/
def asConst? (s : List Char) : Option Nat := do
  let rest ← afterSpacedWord? "as" s
  let rest ← afterLiteral? "const" rest
  if atWordEnd rest then some (s.length - rest.length) else none

/-- What follows the type arguments at the start of a text, if there are any. -/
def afterTypeArguments (s : List Char) : List Char :=
  match s with
  | '<' :: cs =>
    let inner := cs.takeWhile fun c => c != '>' && c != ';' && c != '='
    match cs.drop inner.length with
    | '>' :: rest => rest
    | _ => s
  | _ => s

/-- What follows the marks for list types at the start of a text. -/
def afterListMarks : List Char → List Char
  | '[' :: ']' :: cs => afterListMarks cs
  | s => s

/-- The length of a clause that checks a value against a type. -/
def satisfies? (s : List Char) : Option Nat := do
  let rest ← afterSpacedWord? "satisfies" s
  let type := rest.takeWhile fun c => isNameRest c || c == '.'
  if type.isEmpty then none
  else
    let rest := afterListMarks (afterTypeArguments (rest.drop type.length))
    some (s.length - rest.length)

/-- A statement without exports, annotations and type clauses, or nothing if it only declares types
or functions. -/
def plain? (statement : String) : Option String :=
  let s := trim statement.toList
  if isErased s then none
  else
    let s := eraseFrom satisfies? 0 (eraseFrom asConst? 0 (afterExport s))
    match declaration? s with
    | some (head, rest) =>
      some (String.ofList head ++ ", ".intercalate ((declarators rest).map Declarator.text))
    | none => some (String.ofList s)

end Script
end Atoll
