import Atoll.Component
import Atoll.Script.Nesting
import Atoll.Text.Blank
import Atoll.Text.Word

/-!
# Statements of a script

A statement ends at a semicolon, and at a line end unless the line before or the line behind it
says that it goes on.  Imports are told apart from the other statements; an import of a default
name may bind a component.
-/

set_option autoImplicit false

namespace Atoll
namespace Script

open Text

/-! ## Splitting -/

/-- The characters that leave a statement unfinished at the end of a line. -/
def continuesAfter (c : Char) : Bool :=
  "=+-*/%&|^!?:,.<>(".toList.contains c

/-- The characters that go on with a statement at the start of a line. -/
def continuesBefore (c : Char) : Bool :=
  ".?:+*/%&|^,=<>".toList.contains c

/-- Whether a statement is finished, given its characters from the last to the first.  An increment
or decrement at its end finishes it. -/
def isFinished (reversed : List Char) : Bool :=
  match reversed.dropWhile isBlank with
  | [] => false
  | '+' :: '+' :: _ => true
  | '-' :: '-' :: _ => true
  | c :: _ => !continuesAfter c

/-- Whether the rest of a script goes on with the statement before it. -/
def goesOn (rest : List (Char × Bool)) : Bool :=
  match rest.dropWhile fun (c, _) => isBlank c with
  | (c, _) :: _ => continuesBefore c
  | [] => false

/-- The statement in front of others, unless it is blank. -/
def addStatement (reversed : List Char) (more : List (List Char)) : List (List Char) :=
  let statement := trim reversed.reverse
  if statement.isEmpty then more else statement :: more

/-- The statements of a marked script behind the characters read so far, the last one first. -/
def cutStatements (reversed : List Char) : List (Char × Bool) → List (List Char)
  | [] => addStatement reversed []
  | (c, top) :: rest =>
    if top && (c == ';' || (c == '\n' && isFinished reversed && !goesOn rest)) then
      addStatement reversed (cutStatements [] rest)
    else cutStatements (c :: reversed) rest

/-- The statements of a script, without comments and without blanks around them. -/
def statements (code : String) : List String :=
  (cutStatements [] (topLevel (uncomment code.toList))).map String.ofList

/-! ## Words -/

/-- Whether no word character stands at the front. -/
def atWordEnd (s : List Char) : Bool :=
  !(s.head?.any isWord)

/-- What follows a word and at least one blank behind it. -/
def afterWord? (word : String) (s : List Char) : Option (List Char) :=
  match afterLiteral? word s with
  | some (c :: cs) => if isBlank c then some (trimStart cs) else none
  | _ => none

/-! ## Imports -/

/-- Whether a statement is an import; a call of `import` is none. -/
def isImport (statement : String) : Bool :=
  match afterLiteral? "import" statement.toList with
  | some rest => atWordEnd rest && rest.head? != some '('
  | none => false

/-- The path behind `from`, between equal quotes and with at least one character. -/
def fromClause? (s : List Char) : Option (List Char) := do
  match trimStart (← afterLiteral? "from" s) with
  | quote :: c :: cs =>
    let body := cs.takeWhile (· != quote)
    if (quote == '"' || quote == '\'') && body.length < cs.length then some (c :: body) else none
  | _ => none

/-- A name and what is read behind it.  If nothing can be read behind the whole name, a `from` at
the end of the name may be the beginning of the rest. -/
def nameThen? {α : Type} (tail? : List Char → Option α) (s : List Char) :
    Option (List Char × α) :=
  let name := s.takeWhile isNameRest
  let rest := s.drop name.length
  let cut := name.take (name.length - 4)
  if name.isEmpty then none
  else
    match tail? (trimStart rest) with
    | some a => some (name, a)
    | none =>
      if !cut.isEmpty && name.drop cut.length == "from".toList then
        (tail? ("from".toList ++ rest)).map fun a => (cut, a)
      else none

/-- What follows the default name of an import: maybe a comma and other names, then the path. -/
def importTail? (s : List Char) : Option (List Char) :=
  match s with
  | ',' :: cs =>
    match trimStart cs with
    | '{' :: inner => do
      match inner.dropWhile (· != '}') with
      | '}' :: rest => fromClause? (trimStart rest)
      | _ => none
    | '*' :: rest => do
      let rest ← afterWord? "as" (trimStart rest)
      (nameThen? fromClause? rest).map (·.2)
    | _ => none
  | _ => fromClause? s

/-- The default name and the path of an import.  An import of types has none. -/
def defaultImport? (statement : List Char) : Option (List Char × List Char) := do
  let rest ← afterWord? "import" statement
  if (afterWord? "type" rest).isSome then none
  else if rest.head?.any isNameStart then nameThen? importTail? rest
  else none

/-- The component that an import binds to its default name: its path has the ending of a component,
or the name starts with a capital letter. -/
def componentImport? (statement : String) : Option ComponentRef := do
  let (name, path) ← defaultImport? statement.toList
  let name := String.ofList name
  let path := String.ofList path
  if (ComponentRef.kindOfEnding? path).isSome || startsUpper name then
    some ⟨name, path, ComponentRef.kindOf path⟩
  else none

/-! ## Parts of a script -/

/-- The imports of a script, its other statements, and the components that the imports bind. -/
structure Parts where
  imports : List String
  statements : List String
  components : List ComponentRef
  deriving DecidableEq, Repr, Inhabited

/-- The parts of a script. -/
def parts (code : String) : Parts :=
  let (imports, others) := (statements code).partition isImport
  ⟨imports, others, imports.filterMap componentImport?⟩

end Script
end Atoll
