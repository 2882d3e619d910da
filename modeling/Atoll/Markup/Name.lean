import Atoll.Text.Case
import Atoll.Text.Search

/-!
# Names of tags and attributes

What a name says about its tag or attribute: void and raw-text elements, components, hydration
directives.
-/

set_option autoImplicit false

namespace Atoll
namespace Markup

/-- Elements that have neither content nor a closing tag. -/
def voidElements : List String :=
  ["area", "base", "br", "col", "embed", "hr", "img", "input", "link", "meta", "param", "source",
    "track", "wbr"]

/-- Elements whose content is neither read for tags and placeholders nor escaped. -/
def rawTextElements : List String :=
  ["script", "style"]

/-- Whether a tag names a void element, in any letter case. -/
def isVoidElement (tag : String) : Bool :=
  voidElements.contains (Text.lower tag)

/-- Whether a tag names a raw-text element, in any letter case. -/
def isRawTextElement (tag : String) : Bool :=
  rawTextElements.contains (Text.lower tag)

/-- A tag is a component exactly when it starts with an upper-case character. -/
def isComponentName (tag : String) : Bool :=
  Text.startsUpper tag

/-- The hydration mode that an attribute name asks for: what follows `client:`. -/
def directiveName? (name : String) : Option String :=
  match Text.afterLiteral? "client:" name.toList with
  | some (c :: cs) => some (String.ofList (c :: cs))
  | _ => none

end Markup
end Atoll
