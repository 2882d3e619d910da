import Atoll.Markup.Diagnostic
import Atoll.Trouble

/-!
# Excerpts of spans from outside

The spans of a parsed document lie in its text.  A span from outside can claim any place, and the
marks under a line far to the right may be more than can be counted.
-/

set_option autoImplicit false

namespace Atoll
namespace Markup

/-- Whether the marks under the line of a span can be counted. -/
def checkMarks (span : Span) (source : String) : Except Trouble Unit := do
  let _ ← Text.repeated " " (indentOf span)
  let _ ← Text.repeated "^" (caretsOf span source)
  .ok ()

/-- A message with its place and source line, if its marks can be counted. -/
def excerpt? (label message : String) (span : Span) (source filename : String) :
    Except Trouble String :=
  (checkMarks span source).map fun _ => excerpt label message span source filename

/-- A diagnostic with the source line it is about, if its marks can be counted. -/
def Diagnostic.format? (d : Diagnostic) (source filename : String) : Except Trouble String :=
  (checkMarks d.span source).map fun _ => d.format source filename

end Markup
end Atoll
