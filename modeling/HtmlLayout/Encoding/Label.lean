import HtmlLayout.Text.Ascii

/-!
# Encodings and their labels

The encodings that bytes are read in, and the labels that documents call them by. A label counts
without the blanks around it and in any case. A label that is not known means nothing.
-/

namespace HtmlLayout

/-- An encoding of text as bytes. -/
inductive Encoding where
  | utf8
  | utf16le
  | utf16be
  | windows1252
  deriving DecidableEq, Repr, Inhabited

namespace Encoding

def labels : List (String × Encoding) :=
  [("unicode-1-1-utf-8", utf8), ("utf-8", utf8), ("utf8", utf8),
    ("utf-16", utf16le), ("utf-16le", utf16le), ("utf-16be", utf16be),
    ("ansi_x3.4-1968", windows1252), ("ascii", windows1252), ("cp1252", windows1252), ("cp819", windows1252),
    ("csisolatin1", windows1252), ("ibm819", windows1252), ("iso-8859-1", windows1252), ("iso-ir-100", windows1252),
    ("iso8859-1", windows1252), ("iso88591", windows1252), ("iso_8859-1", windows1252), ("iso_8859-1:1987", windows1252),
    ("l1", windows1252), ("latin1", windows1252), ("us-ascii", windows1252), ("windows-1252", windows1252),
    ("x-cp1252", windows1252)]

/-- A label without the blanks around it. -/
def trimLabel (label : List Char) : List Char :=
  ((label.dropWhile Text.isMarkupSpace).reverse.dropWhile Text.isMarkupSpace).reverse

def ofLabel? (label : String) : Option Encoding :=
  let name := String.ofList ((trimLabel label.toList).map Text.lowerChar)
  (labels.find? fun entry => entry.1 == name).map Prod.snd

/-- Whether an encoding is made of units of two bytes. -/
def isUtf16 : Encoding → Bool
  | utf16le => true
  | utf16be => true
  | _ => false

/-- The name of the encoding that bytes are taken to be in. -/
def likelyName : String := "utf-8"

/-- The encoding of bytes that say nothing about it, by the name of the likely one if there is one. -/
def fallback (likely? : Option String) : Encoding :=
  (likely?.bind ofLabel?).getD windows1252

end Encoding

end HtmlLayout
