/-!
# Blank text

A text is blank when it holds nothing but whitespace. Whitespace is meant in the wide sense of the
Unicode standard, with the four separators of ASCII; the zero width characters do not belong to it.
-/

namespace HtmlLayout.Text

/-- The whitespace characters. -/
def isSpace (c : Char) : Bool :=
  let n := c.toNat
  (0x09 ≤ n && n ≤ 0x0D) || (0x1C ≤ n && n ≤ 0x20) || n == 0x85 || n == 0xA0 || n == 0x1680
    || (0x2000 ≤ n && n ≤ 0x200A) || n == 0x2028 || n == 0x2029 || n == 0x202F || n == 0x205F || n == 0x3000

/-- Whether a text is empty or whitespace throughout. -/
def isBlank (text : String) : Bool :=
  text.toList.all isSpace

end HtmlLayout.Text
