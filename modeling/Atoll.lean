import Atoll.Editor
import Atoll.Main
import Atoll.Markup.Excerpt
import Atoll.Proofs.Cleanup
import Atoll.Proofs.Emission
import Atoll.Proofs.Levels
import Atoll.Proofs.Grammar
import Atoll.Proofs.Lexer
import Atoll.Proofs.Opening
import Atoll.Proofs.Position
import Atoll.Proofs.Printer
import Atoll.Proofs.Rendering
import Atoll.Proofs.RoundTrip
import Atoll.Proofs.Scanner
import Atoll.Proofs.Stream
import Atoll.Render.LiveReload
import Atoll.Render.Site
import Atoll.Stored.Rendering
import Atoll.Proofs.Acceptance
import Atoll.Proofs.Canonical
import Atoll.Proofs.Reparse
import Atoll.Proofs.Storage
import Atoll.Proofs.Json
import Atoll.Proofs.Outcome
import Atoll.Proofs.Reporting
import Atoll.Proofs.Layout
import Atoll.Proofs.Enclosure
import Atoll.Proofs.Commas
import Atoll.Proofs.Trimming
import Atoll.Proofs.Declaring
import Atoll.Proofs.Dependence
import Atoll.Proofs.Conservation
import Atoll.Proofs.Doubles
import Atoll.Proofs.Hydration
import Atoll.Proofs.Declarators
import Atoll.Proofs.Origin
import Atoll.Proofs.Restating
import Atoll.Proofs.Tracing
import Atoll.Proofs.Rows
import Atoll.Proofs.Ink
import Atoll.Proofs.Placement
import Atoll.Proofs.Shape
import Atoll.Proofs.Sublanguage
import Atoll.Proofs.Blanks
import Atoll.Proofs.LineFilter
import Atoll.Proofs.Substitution
import Atoll.Proofs.Destructuring
import Atoll.Proofs.Execution
import Atoll.Proofs.Depth
import Atoll.Proofs.LateBinding
import Atoll.Proofs.RawText
import Atoll.Proofs.Splitting
import Atoll.Proofs.Clauses
import Atoll.Proofs.Annotations
import Atoll.Proofs.Defaults
import Atoll.Proofs.Interpolation
import Atoll.Proofs.Chaining
import Atoll.Proofs.Excerpt
import Atoll.Proofs.InlineLayout
import Atoll.Proofs.Equality
import Atoll.Proofs.Export
import Atoll.Proofs.Membership
import Atoll.Proofs.Stopping
import Atoll.Proofs.Tightening
import Atoll.Proofs.Placeholders
import Atoll.Proofs.Escaping
