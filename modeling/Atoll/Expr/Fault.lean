import Atoll.Datum.Json
import Atoll.Trouble

/-!
# What can go wrong with an expression

A `Reason` is a failure that is reported, with one message for each; some have a cause behind them,
which the message names too.  A `Fault` is what a computation ends with: a reported failure and the
expression it is about, or trouble in an operation that is turned into a reported failure further
up.
-/

set_option autoImplicit false

namespace Atoll
namespace Expr

/-- Why an expression cannot be read or has no value. -/
inductive Reason where
  | unexpectedCharacter (c : Char)
  | unterminatedTemplate
  | emptyExpression
  /-- Something, already quoted, stands behind a complete expression. -/
  | trailing (found : String) (offset : Nat)
  /-- Something, already quoted, stands where an expression should start. -/
  | unexpected (found : String)
  /-- Something, already quoted, stands where a symbol is due. -/
  | expected (symbol found : String)
  | expectedPropertyName
  | expectedPropertyKey
  | notDefined (name : String)
  | notIterable (type : String)
  | notAFunction (type : String)
  | noProperty (key owner : String)
  | noText (kind : String)
  | emptyReduce
  | unsupportedPattern (pattern : String)
  /-- A number has no text. -/
  | numberTooLarge
  | invalidJson (flaw : Json.Flaw)
  /-- A function could not do its work; without a cause it was nested too deeply. -/
  | callFailed (cause : Option Trouble)
  | arithmeticFailed (cause : Trouble)
  | tooDeep
  deriving DecidableEq, Repr, Inhabited

/-- What a reason says without its cause. -/
def Reason.headline : Reason → String
  | .unexpectedCharacter c => "unexpected character " ++ Text.quoted c.toString
  | .unterminatedTemplate => "unterminated template literal"
  | .emptyExpression => "empty expression"
  | .trailing found offset => "unexpected " ++ found ++ " at offset " ++ toString offset
  | .unexpected found => "unexpected " ++ found
  | .expected symbol found => "expected " ++ Text.quoted symbol ++ " but found " ++ found
  | .expectedPropertyName => "expected a property name"
  | .expectedPropertyKey => "expected a property key"
  | .notDefined name => name ++ " is not defined"
  | .notIterable type => type ++ " is not iterable"
  | .notAFunction type => type ++ " is not a function"
  | .noProperty key owner => "cannot read property " ++ Text.quoted key ++ " of " ++ owner
  | .noText kind => "cannot convert " ++ kind ++ " to a string"
  | .emptyReduce => "reduce of empty array with no initial value"
  | .unsupportedPattern pattern => "unsupported binding pattern " ++ Text.quoted pattern
  | .numberTooLarge => "number too large to display"
  | .invalidJson _ => "invalid JSON"
  | .callFailed _ => "call failed"
  | .arithmeticFailed _ => "arithmetic failed"
  | .tooDeep => "expression nested too deeply"

/-- What a reason says about its cause, if it has one. -/
def Reason.cause? : Reason → Option String
  | .numberTooLarge => some Trouble.longInteger.message
  | .invalidJson flaw => some flaw.message
  | .callFailed (some trouble) => some trouble.message
  | .callFailed none => some "maximum recursion depth exceeded"
  | .arithmeticFailed trouble => some trouble.message
  | _ => none

/-- The message of a reason. -/
def Reason.message (r : Reason) : String :=
  match r.cause? with
  | some cause => r.headline ++ ": " ++ cause
  | none => r.headline

/-- A failure with the source of the expression it is about, empty while that is not known. -/
structure Failure where
  reason : Reason
  source : String
  deriving DecidableEq, Repr, Inhabited

/-- A message with the text it is about, if there is one. -/
def withSource (message source : String) : String :=
  if source.isEmpty then message else message ++ " in " ++ Text.quoted source

/-- A failure in full. -/
def Failure.text (f : Failure) : String :=
  withSource f.reason.message f.source

/-- What a computation on expressions and values ends with when it has no result. -/
inductive Fault where
  /-- A failure to be reported. -/
  | failed (failure : Failure)
  /-- An operation has no result. -/
  | trouble (cause : Trouble)
  /-- The evaluation is nested too deeply. -/
  | tooDeep
  deriving DecidableEq, Repr, Inhabited

/-- A failure whose expression is not known yet. -/
def Fault.because (reason : Reason) : Fault :=
  .failed ⟨reason, ""⟩

/-- A failure of the expression with the given source. -/
def Fault.about (source : String) (reason : Reason) : Fault :=
  .failed ⟨reason, source⟩

end Expr
end Atoll
