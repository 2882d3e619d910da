import Atoll.Text.Search

/-!
# Escaping

`escapeHtml` is for content, `escapeAttr` for attribute values, where only the quote around the value
matters.  `escapeText` is `escapeHtml` for text that may hold comments and document types, which
stay as they are.
-/

set_option autoImplicit false

namespace Atoll
namespace Markup

/-- A character of content. -/
def escapeChar (c : Char) : List Char :=
  match c with
  | '&' => "&amp;".toList
  | '<' => "&lt;".toList
  | '>' => "&gt;".toList
  | '"' => "&quot;".toList
  | '\'' => "&#39;".toList
  | _ => [c]

/-- Escaped content. -/
def escapeHtml (s : String) : String :=
  String.ofList (s.toList.flatMap escapeChar)

/-- An attribute value that stands between the given quotes. -/
def escapeBetween (quote : Char) (s : String) : String :=
  String.ofList (s.toList.flatMap fun c => if c == '&' || c == quote then escapeChar c else [c])

/-- An attribute value that stands between double quotes. -/
def escapeAttr (s : String) : String :=
  escapeBetween '"' s

/-- What follows a word in a text that starts with it in any case of letters. -/
def afterCaseless? : List Char → List Char → Option (List Char)
  | [], s => some s
  | w :: ws, c :: cs => if c.toLower == w then afterCaseless? ws cs else none
  | _ :: _, [] => none

/-- The length of a comment or a document type that starts here. -/
def verbatimLength? (s : List Char) : Option Nat :=
  match Text.afterLiteral? "<!--" s with
  | some rest =>
    match Text.find? "-->".toList rest with
    | some i => some (4 + i + 3)
    | none => none
  | none =>
    match afterCaseless? "<!doctype".toList s with
    | some rest =>
      let inner := rest.takeWhile (· != '>')
      if inner.length < rest.length then some (9 + inner.length + 1) else none
    | none => none

/-- Escaped text.  `verbatim` counts the characters of the current comment or document type still
to come. -/
def escapeTextFrom : Nat → List Char → List Char
  | _, [] => []
  | verbatim + 1, c :: cs => c :: escapeTextFrom verbatim cs
  | 0, c :: cs =>
    match verbatimLength? (c :: cs) with
    | some n => c :: escapeTextFrom (n - 1) cs
    | none => escapeChar c ++ escapeTextFrom 0 cs

/-- Text with everything escaped but comments and document types. -/
def escapeText (s : String) : String :=
  String.ofList (escapeTextFrom 0 s.toList)

end Markup
end Atoll
