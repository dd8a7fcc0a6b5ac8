/-!
# The ASCII rules of markup

Names in markup fold the case of ASCII letters and of nothing else, and the blanks that separate
the parts of a tag are five ASCII characters.
-/

namespace HtmlLayout.Text

/-- An ASCII letter in lower case, any other character as it is. -/
def lowerChar (c : Char) : Char :=
  if 'A' ≤ c && c ≤ 'Z' then Char.ofNat (c.toNat + 32) else c

/-- A name with its ASCII letters in lower case. -/
def lower (name : String) : String :=
  String.ofList (name.toList.map lowerChar)

/-- Letters that may start a tag name. -/
def isLetter (c : Char) : Bool :=
  ('a' ≤ c && c ≤ 'z') || ('A' ≤ c && c ≤ 'Z')

/-- Decimal digits. -/
def isDigit (c : Char) : Bool :=
  '0' ≤ c && c ≤ '9'

/-- Hexadecimal digits of either case. -/
def isHexDigit (c : Char) : Bool :=
  isDigit c || ('a' ≤ c && c ≤ 'f') || ('A' ≤ c && c ≤ 'F')

/-- The value of a hexadecimal digit, and zero for every other character. -/
def digitValue (c : Char) : Nat :=
  if isDigit c then c.toNat - '0'.toNat
  else if 'a' ≤ c && c ≤ 'f' then c.toNat - 'a'.toNat + 10
  else if 'A' ≤ c && c ≤ 'F' then c.toNat - 'A'.toNat + 10
  else 0

/-- The blanks of markup: tab, line feed, form feed, carriage return and space. -/
def isMarkupSpace (c : Char) : Bool :=
  c == ' ' || c == '\n' || c == '\t' || c == '\r' || c == '\x0c'

/-- Whether `text` starts with `start`. -/
def startsWith (text start : String) : Bool :=
  start.toList.isPrefixOf text.toList

end HtmlLayout.Text
