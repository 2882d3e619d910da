import Atoll.Position
import Atoll.Text.Listing
import Atoll.Text.Search

/-!
# Diagnostics

A `Problem` says what is wrong with a document; a `Diagnostic` is a problem at a place.  A
`Report` is the form in which it is shown: a code, a message, a place and a severity.  `excerpt`
shows a message with the line it is about and carets under the place.
-/

set_option autoImplicit false

namespace Atoll
namespace Markup

/-- How bad a problem is.  A document with an error is not compiled. -/
inductive Severity where
  | error
  | warning
  deriving DecidableEq, Repr, Inhabited

namespace Severity

/-- The word for a severity. -/
def word : Severity → String
  | .error => "error"
  | .warning => "warning"

/-- The severity a word stands for. -/
def ofWord? (word : String) : Option Severity :=
  if word == "error" then some .error
  else if word == "warning" then some .warning
  else none

end Severity

/-- What can be wrong with a document. -/
inductive Problem where
  /-- A closing tag that no open element waits for. -/
  | unmatchedClosingTag (tag : String)
  /-- A placeholder without its closing brace. -/
  | unclosedExpression
  /-- An opening tag that is never finished. -/
  | unfinishedTag (tag : String)
  /-- A further hydration directive on one tag. -/
  | duplicateDirective (tag attr : String)
  /-- A brace value without its closing brace. -/
  | unclosedBraceValue (attr : String)
  /-- A quoted value without its closing quote. -/
  | unclosedQuote (attr : String)
  /-- An element that is never closed. -/
  | unclosedTag (tag : String)
  /-- A closing tag where another one is due. -/
  | mismatchedTag (expected found : String)
  deriving DecidableEq, Repr, Inhabited

namespace Problem

/-- The code under which a problem is reported. -/
def code : Problem → String
  | .unmatchedClosingTag _ => "unmatched-closing-tag"
  | .unclosedExpression => "unclosed-expression"
  | .unfinishedTag _ => "unclosed-tag"
  | .duplicateDirective _ _ => "duplicate-directive"
  | .unclosedBraceValue _ => "unclosed-expression"
  | .unclosedQuote _ => "unclosed-attribute"
  | .unclosedTag _ => "unclosed-tag"
  | .mismatchedTag _ _ => "mismatched-tag"

/-- The message for a problem. -/
def message : Problem → String
  | .unmatchedClosingTag tag => "closing tag </" ++ tag ++ "> has no matching opening tag"
  | .unclosedExpression => "expression is missing its closing '\x7d'"
  | .unfinishedTag tag => "opening tag <" ++ tag ++ "> is never finished with '>'"
  | .duplicateDirective tag attr =>
    "<" ++ tag ++ "> has more than one client directive; '" ++ attr ++ "' is ignored"
  | .unclosedBraceValue attr => "value of attribute '" ++ attr ++ "' is missing its closing '\x7d'"
  | .unclosedQuote attr => "value of attribute '" ++ attr ++ "' is missing its closing quote"
  | .unclosedTag tag => "<" ++ tag ++ "> is never closed"
  | .mismatchedTag expected found => "expected </" ++ expected ++ "> but found </" ++ found ++ ">"

/-- How bad a problem is. -/
def severity : Problem → Severity
  | .unmatchedClosingTag _ => .warning
  | .duplicateDirective _ _ => .warning
  | _ => .error

end Problem

/-- A problem at a place. -/
structure Diagnostic where
  problem : Problem
  span : Span
  deriving DecidableEq, Repr, Inhabited

/-- What is shown of a diagnostic. -/
structure Report where
  code : String
  message : String
  span : Span
  severity : Severity
  deriving DecidableEq, Repr, Inhabited

/-! ## Showing a message with its source line -/

/-- The text without the given character at its end. -/
def dropTrailing (c : Char) (s : List Char) : List Char :=
  (s.reverse.dropWhile (· == c)).reverse

/-- A line of a listing, counted from one, without its newline and carriage returns; empty when
there is no such line. -/
def sourceLine (source : String) (line : Int) : List Char :=
  if line < 1 then []
  else
    let found := (Text.listing source.toList)[(line - 1).toNat]?
    dropTrailing '\r' (dropTrailing '\n' (found.getD []))

/-- The number of characters in front of the carets under a span. -/
def indentOf (span : Span) : Int :=
  span.start.column - 1

/-- The number of carets under a span: under all of it when it stays on its line, and else up to the
end of the line. -/
def caretsOf (span : Span) (source : String) : Int :=
  if span.stop.line == span.start.line then max 1 (span.stop.column - span.start.column)
  else max 1 ((sourceLine source span.start.line).length - span.start.column + 1)

/-- A message with its place, the source line, and carets under the place. -/
def excerpt (label message : String) (span : Span) (source filename : String) : String :=
  let line := sourceLine source span.start.line
  let number := toString span.start.line
  let margin := Text.times (number.length + 1) " "
  label ++ ": " ++ message ++ "\n"
    ++ margin ++ "--> " ++ filename ++ ":" ++ number ++ ":" ++ toString span.start.column ++ "\n"
    ++ margin ++ "|\n"
    ++ number ++ " | " ++ String.ofList line ++ "\n"
    ++ margin ++ "| " ++ Text.times (indentOf span) " " ++ Text.times (caretsOf span source) "^"

namespace Diagnostic

/-- How bad the problem is. -/
def severity (d : Diagnostic) : Severity :=
  d.problem.severity

/-- Whether the problem is an error. -/
def isError (d : Diagnostic) : Bool :=
  d.severity == .error

/-- The form in which the diagnostic is shown. -/
def report (d : Diagnostic) : Report :=
  ⟨d.problem.code, d.problem.message, d.span, d.severity⟩

/-- The diagnostic with the source line it is about. -/
def format (d : Diagnostic) (source filename : String) : String :=
  excerpt (d.severity.word ++ "[" ++ d.problem.code ++ "]") d.problem.message d.span source filename

end Diagnostic

end Markup
end Atoll
