import Atoll.Build.Stream
import Atoll.Datum.Literal
import Atoll.Stored

/-!
# Building stored trees

A stored tree whose fields are of the right kind is built like the document that it is.  Any other
one is built as far as it goes: a field is looked at only where it is written, and data that cannot
be written there ends the output.

Data in the place of a text is passed on as a piece where nothing is done with the text.  It is in
the way when the pieces are joined.
-/

set_option autoImplicit false

namespace Atoll
namespace Stored

open Build (Emission Options Sink Streamed)
open Atoll.Expr (Fault)
open Markup
open Script (Scope)

/-- A piece of output: a text, or data in the place of one. -/
inductive Piece where
  | text (s : String)
  | data (d : Datum)
  deriving Repr, Inhabited

namespace Piece

/-- The text of a piece. -/
def toText : Piece → Except Fault String
  | .text s => .ok s
  | .data _ => .error (.trouble .notText)

end Piece

/-- All pieces as one text.  Data among them shows only when all of them are there. -/
def joined (e : Emission Piece) : Except Fault String :=
  match e.fault with
  | some fault => .error fault
  | none => (e.pieces.mapM Piece.toText).map String.join

/-! ## Chunks -/

/-- The number of parts of data that has parts. -/
def partCount? : Datum → Option Nat
  | .string s => some s.length
  | .array items => some items.length
  | .object entries => some entries.length
  | _ => none

/-- The fault of a stream in which data has been gathered for a chunk.  It shows when the chunk is
full, when something without a length comes, and at the end, unless a fault of the pieces comes
before.  `pending` is how much has been gathered. -/
def blockedFault (size : Nat) (fault : Option Fault) (pending : Nat) : List Piece → Fault
  | [] => if size ≤ pending then .trouble .notText else fault.getD (.trouble .notText)
  | piece :: rest =>
    if size ≤ pending then .trouble .notText
    else
      match piece with
      | .text s => blockedFault size fault (pending + s.length) rest
      | .data d =>
        if !isSet d then blockedFault size fault pending rest
        else
          match partCount? d with
          | some n => blockedFault size fault (pending + n) rest
          | none => .trouble .notText

/-- The texts that can go into chunks of the given size, and the fault that ends them.  Data that
counts as false is passed over, and other data ends the texts.  `pending` is how much has been
gathered for the next chunk. -/
def chunkable (size : Nat) (fault : Option Fault) (pending : Nat) : List Piece → Emission String
  | [] => ⟨[], fault⟩
  | .text s :: rest =>
    let pending := pending + s.length
    .piece s ++ chunkable size fault (if size ≤ pending then 0 else pending) rest
  | .data d :: rest =>
    if !isSet d then chunkable size fault pending rest
    else
      match partCount? d with
      | some n => ⟨[], some (blockedFault size fault (pending + n) rest)⟩
      | none => ⟨[], some (.trouble .notText)⟩

/-! ## Pieces -/

section

variable (o : Options) (scope : Scope)

/-- Data on a line of its own when output is pretty, where it has to be a text. -/
def blockPiece (value : Datum) (indent : String) (pretty : Bool) : Except Fault Piece :=
  match value with
  | .string s => .ok (.text (Build.block s indent pretty))
  | d => if pretty then .error (.trouble .noPart) else .ok (.data d)

/-- The value of a text node.  To be escaped it has to be a text. -/
def textPiece (value : Datum) (indent : String) (pretty raw : Bool) : Except Fault Piece :=
  match value with
  | .string s => .ok (.text (Build.textPiece o s indent pretty raw))
  | d => if o.escape && !raw then .error (.trouble .notText) else blockPiece d indent pretty

/-- A placeholder.  Only a text can be evaluated; anything can stand in a comment. -/
def expressionPiece (code : Datum) (indent : String) (pretty : Bool) : Except Fault Piece :=
  match code with
  | .string s => (Build.expressionPiece o scope s indent pretty).map .text
  | d =>
    if o.evaluate then .error (.trouble .notText)
    else (Build.expressionPiece o scope d.shown indent pretty).map .text

/-- An attribute with the blank in front of it. -/
def attrText : Stored → Except Fault String
  | .attr name value _ _ braces =>
    if isSet braces && o.evaluate then
      (scope.attrValueOf (braceCode value braces)).map (Build.attrText name.shown)
    else
      match value with
      | .string s => .ok (Build.attrText name.shown (.text s))
      | .bool b => .ok (Build.attrText name.shown (.flag b))
      | _ => .error (.trouble .notText)
  | _ => .error (.trouble .noPart)

/-- The tag of an element in lower case. -/
def tagText : Datum → Except Fault String
  | .string s => .ok (Text.lower s)
  | _ => .error (.trouble .noPart)

/-- The tag of an element and its attributes as they stand in the opening tag. -/
def openingText (tag : Datum) (attrs : List Stored) : Except Fault (String × String) := do
  let tag ← tagText tag
  let attrs ← attrs.mapM (attrText o scope)
  .ok (tag, "<" ++ tag ++ String.join attrs)

/-- Whether a stored node is text or a placeholder. -/
def isInline : Stored → Bool
  | .text _ _ => true
  | .expression _ _ _ => true
  | _ => false

mutual

/-- The pieces of a stored node. -/
def emit (depth : Nat) (pretty raw : Bool) : Stored → Emission Piece
  | .fragment children _ => emitAll depth pretty raw children
  | .frontmatter _ _ => .nothing
  | .text value _ => .ofExcept (textPiece o value (Build.indentAt o depth pretty) pretty raw)
  | .expression code _ _ =>
    .ofExcept (expressionPiece o scope code (Build.indentAt o depth pretty) pretty)
  | .rawHTML value _ => .ofExcept (blockPiece value (Build.indentAt o depth pretty) pretty)
  | .attr _ _ _ _ _ => ⟨[], some (.trouble .strayAttr)⟩
  | .tagged true tag _ _ _ _ =>
    .piece (.text (Build.indentAt o depth pretty ++ Build.componentComment tag.shown
      ++ Build.lineEnd pretty))
  | .tagged false tag attrs children selfClosing _ =>
    match openingText o scope tag attrs with
    | .error fault => ⟨[], some fault⟩
    | .ok (tag, opening) =>
      let indent := Build.indentAt o depth pretty
      let newline := Build.lineEnd pretty
      let opening := indent ++ opening
      let closing := "</" ++ tag ++ ">"
      if isVoidElement tag then .piece (.text (opening ++ ">" ++ newline))
      else if isSet selfClosing then .piece (.text (opening ++ " />" ++ newline))
      else if children.isEmpty then .piece (.text (opening ++ ">" ++ closing ++ newline))
      else if pretty && children.all isInline then
        .ofExcept ((joined (emitAll 0 false (isRawTextElement tag) children)).map fun body =>
          .text (opening ++ ">" ++ body ++ closing ++ newline))
      else
        .piece (.text (opening ++ ">" ++ newline))
          ++ emitAll (depth + 1) pretty (isRawTextElement tag) children
          ++ .piece (.text (indent ++ closing ++ newline))

/-- The pieces of stored nodes one behind the other. -/
def emitAll (depth : Nat) (pretty raw : Bool) : List Stored → Emission Piece
  | [] => .nothing
  | n :: ns => emit depth pretty raw n ++ emitAll depth pretty raw ns

end

end

/-! ## Scripts -/

/-- The marks that open and close quoted texts, in a row. -/
def quoteMarks : List Char :=
  ['"', '\'', '\x60']

/-- What follows a quoted text in a list that stands for the characters of a script.  An item behind
a backslash does not count, and a line end breaks the text off, except between backticks. -/
def afterQuoted (quote : String) : List Datum → List Datum
  | [] => []
  | .string s :: rest =>
    if s == "\\" then
      match rest with
      | _ :: rest => afterQuoted quote rest
      | [] => []
    else if s == quote then rest
    else if s == "\n" && quote != "\x60" then .string s :: rest
    else afterQuoted quote rest
  | _ :: rest => afterQuoted quote rest

/-- The trouble with a list in the place of a script, whose items are taken for characters: only
quoted texts can be passed over, and these cannot be joined.  `fuel` bounds the quoted texts. -/
def listTrouble : Nat → List Datum → Trouble
  | fuel + 1, .string s :: rest =>
    if Text.occursIn s.toList quoteMarks then listTrouble fuel (afterQuoted s rest) else .noPart
  | _, _ => .notText

/-- The names that a stored script binds.  An empty list or object is as good as an empty text. -/
def scriptNames (context : Bindings) : Datum → Except Fault Bindings
  | .string code => Script.bindingsOf code context
  | .array [] => .ok context
  | .object [] => .ok context
  | .object _ => .error (.trouble .noPlace)
  | .array items => .error (.trouble (listTrouble items.length items))
  | _ => .error (.trouble .notText)

/-! ## Documents -/

/-- The names that the expressions of a stored document can use. -/
def namesFor (n : Stored) (o : Options) : Except Fault Bindings :=
  if !o.evaluate then .ok []
  else
    match n.script? with
    | some (code, _) => scriptNames o.context code
    | none => .ok o.context

/-- The pieces of a stored document. -/
def emission (n : Stored) (o : Options) : Emission Piece :=
  match namesFor n o, o.fault? with
  | .error fault, _ => ⟨[], some fault⟩
  | .ok _, some fault => ⟨[], some fault⟩
  | .ok names, none => emit o (.ofNames names) 0 o.pretty false n

/-- The markup of a stored document. -/
def markup (n : Stored) (o : Options) : Except Fault String :=
  match n.toFragment? with
  | some f => Build.markup f o
  | none => (joined (emission n o)).map (Build.finish o)

/-- Streams a stored document to a sink. -/
def stream (n : Stored) (o : Options) (sink : Sink) : Streamed :=
  match n.toFragment? with
  | some f => Build.stream f o sink
  | none =>
    let e := emission n o
    Build.streamPieces (chunkable o.chunkLength e.fault 0 e.pieces) o sink

end Stored
end Atoll
