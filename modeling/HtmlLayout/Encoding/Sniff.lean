import HtmlLayout.Encoding.Decode
import HtmlLayout.Encoding.Prescan

/-!
# The encoding of some bytes

A byte order mark settles the encoding and is no part of the text. Without one, a declaration found
by looking ahead is tried first and the likely encoding otherwise, if one was named; either may give way to what the
document itself declares when it is read.
-/

namespace HtmlLayout.Encoding

/-- An encoding to read bytes in. -/
structure Guess where
  encoding : Encoding
  /-- Whether a declaration in the document can still change it. -/
  certain : Bool
  /-- The bytes of the text. -/
  body : List UInt8
  deriving Inhabited

/-- Marks of four-byte encodings, which are not read. They hide the mark of a two-byte encoding, and the search for a declaration starts after them. -/
def isWideMark (bytes : List UInt8) : Bool :=
  bytes.take 4 == [0xFF, 0xFE, 0x00, 0x00] || bytes.take 4 == [0x00, 0x00, 0xFE, 0xFF]

/-- The encoding to read bytes in first. -/
def sniff (likely? : Option String) (bytes : List UInt8) : Guess :=
  let declared (start : List UInt8) : Guess :=
    { encoding := (prescan start).getD (fallback likely?), certain := false, body := bytes }
  if bytes.take 3 == [0xEF, 0xBB, 0xBF] then { encoding := utf8, certain := true, body := bytes.drop 3 }
  else if isWideMark bytes then declared (bytes.drop 4)
  else if bytes.take 2 == [0xFF, 0xFE] then { encoding := utf16le, certain := true, body := bytes.drop 2 }
  else if bytes.take 2 == [0xFE, 0xFF] then { encoding := utf16be, certain := true, body := bytes.drop 2 }
  else declared bytes

/-- The encoding to read again in, if the declarations of a document, in order, ask for one. The first that means anything decides; one of two-byte units cannot be meant. -/
def change? (current : Encoding) : List String → Option Encoding
  | [] => none
  | label :: rest =>
      match ofLabel? label with
      | none => change? current rest
      | some encoding =>
          if encoding.isUtf16 then change? current rest
          else if encoding == current then none
          else some encoding

end HtmlLayout.Encoding
