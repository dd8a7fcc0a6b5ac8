import HtmlLayout.Encoding.Sniff
import HtmlLayout.Html.Parser
import HtmlLayout.Reading

/-!
# Sources

A source of markup is a text or bytes, given directly or as a stream to be read from. Text is read
as it is. Bytes are read in the encoding they seem to have; when the document then declares another
one and nothing has settled the matter, they are read again from the start in that one.
-/

namespace HtmlLayout

/-- Where markup comes from. -/
inductive Source where
  | text (data : String)
  | bytes (data : List UInt8)
  | textStream (data : String)
  | byteStream (data : List UInt8)
  deriving Inhabited

namespace Source

def isBinary : Source → Bool
  | text _ | textStream _ => false
  | bytes _ | byteStream _ => true

/-- The name of the encoding that a source is taken to be in. A text is in none, and no name may be given for it. -/
def likelyEncoding? (source : Source) : Option String :=
  if source.isBinary then some Encoding.likelyName else none

end Source

namespace Target

def parser : Target → Html.Parser
  | document => .forDocument
  | fragment container => .forFragment container

def nodes (target : Target) (parser : Html.Parser) : List Dom :=
  match target with
  | document => parser.documentNodes
  | fragment _ => parser.fragmentNodes

def parse (target : Target) (text : List Char) : Html.Parser :=
  (target.parser.feed (Html.unifyNewlines text)).finish

/-- The words about a number that has too many digits. -/
def overlongWords (digits : Nat) : String :=
  "Exceeds the limit (" ++ toString Html.Reference.maxDigits ++ " digits) for integer string conversion: value has "
    ++ toString digits ++ " digits; use sys.set_int_max_str_digits() to increase the limit"

def answer (target : Target) (parser : Html.Parser) : Except ReadFault (List Dom) :=
  match parser.overlong with
  | some digits => .error { trouble := .value, text := overlongWords digits }
  | none => .ok (target.nodes parser)

def readText (target : Target) (text : String) : Except ReadFault (List Dom) :=
  target.answer (target.parse text.toList)

def readBytes (target : Target) (likely? : Option String) (bytes : List UInt8) : Except ReadFault (List Dom) :=
  let guess := Encoding.sniff likely? bytes
  let first := target.parse (guess.encoding.decode guess.body)
  if guess.certain then target.answer first
  else
    match Encoding.change? guess.encoding first.assembly.charsets.reverse with
    | none => target.answer first
    | some encoding => target.answer (target.parse (encoding.decode bytes))

def read (target : Target) (source : Source) : Except ReadFault (List Dom) :=
  match source with
  | .text data | .textStream data => target.readText data
  | .bytes data | .byteStream data => target.readBytes source.likelyEncoding? data

end Target

namespace Source

/-- The nodes of a source: the children of a document, or the nodes of a fragment. -/
def parse (source : Source) (calls : Nat) (target : Target) (sourceName : Option String := none) : Run (List Node) :=
  adapt calls target sourceName (target.read source)

end Source

end HtmlLayout
