import HtmlLayout.Text.Replace

/-!
# Escaping text for markup

One rule serves text and attribute values. An attribute value is always written between double
quotes, so a single quote needs no escape.

The escape is four replacements of the whole text. The ampersand goes first, since the later three
put ampersands in that must stay.
-/

namespace HtmlLayout.Text

/-- The characters of a text with its four special characters written as references. -/
def escapeChars (text : List Char) : List Char :=
  replaceAll "\"" "&quot;" (replaceAll ">" "&gt;" (replaceAll "<" "&lt;" (replaceAll "&" "&amp;" text)))

/-- A text as it is written inside an element or an attribute value. -/
def escape (text : String) : String :=
  String.ofList (escapeChars text.toList)

end HtmlLayout.Text
