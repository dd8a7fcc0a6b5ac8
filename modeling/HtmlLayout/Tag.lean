/-!
# Classes of tags

The layout of an element depends on its tag alone. Five classes decide it, each a list of tags:
void elements hold nothing and close themselves, inline elements never start a line, raw text is
written unescaped, some elements lose a newline right after their start tag when they are read
back, and two block elements keep their end tag on the line of their content.
-/

namespace HtmlLayout.Tag

/-- Elements that cannot have contents. -/
def void : List String :=
  ["area", "base", "br", "col", "command", "embed", "hr", "img", "input", "keygen", "link", "meta",
    "param", "source", "track", "wbr"]

/-- Elements that flow with the text around them. -/
def inline : List String :=
  ["a", "abbr", "b", "bdi", "bdo", "br", "cite", "code", "data", "del", "dfn", "em", "i", "kbd",
    "mark", "nobr", "q", "rp", "rt", "rtc", "ruby", "s", "samp", "small", "span", "strong", "sub",
    "sup", "time", "tt", "u", "var", "wbr"]

/-- Elements whose text is written as it is. -/
def rawText : List String :=
  ["iframe", "noembed", "noframes", "noscript", "plaintext", "script", "style", "xmp"]

/-- Elements that lose one newline directly after their start tag when they are read. -/
def leadingNewline : List String :=
  ["listing", "pre", "textarea"]

/-- Block elements whose end tag stays on the line of the content. -/
def noClosingBreak : List String :=
  ["p", "pre"]

/-- The element that ends all markup: whatever follows its start tag is text. -/
def plaintext : String := "plaintext"

def isVoid (tag : String) : Bool := void.contains tag

def isInline (tag : String) : Bool := inline.contains tag

def isRawText (tag : String) : Bool := rawText.contains tag

def dropsNewline (tag : String) : Bool := leadingNewline.contains tag

def keepsClosing (tag : String) : Bool := noClosingBreak.contains tag

end HtmlLayout.Tag
