/-!
# Tokens of markup

What a text of markup is cut into. Text comes one character at a time. A blank counts as a space
when it starts a stretch of text and as a character of the stretch otherwise, since the places that
drop blanks between tags keep those inside text.
-/

namespace HtmlLayout.Html

/-- A start tag. Names are in lower case, and of attributes with one name only the first is kept. -/
structure StartTag where
  name : String
  attrs : List (String × String) := []
  selfClosing : Bool := false
  deriving DecidableEq, Repr, Inhabited

namespace StartTag

def attr? (tag : StartTag) (name : String) : Option String :=
  (tag.attrs.find? fun entry => entry.1 == name).map Prod.snd

end StartTag

/-- A token. -/
inductive Token where
  /-- A document type; `correct` tells whether it was written without a fault. -/
  | doctype (name : String) (publicId systemId : Option String) (correct : Bool)
  | startTag (tag : StartTag)
  | endTag (name : String)
  | comment (data : String)
  /-- A blank between other things. -/
  | space (c : Char)
  /-- A character of text. -/
  | char (c : Char)
  /-- A reference whose number is too long to be read. -/
  | overlong (digits : Nat)
  deriving DecidableEq, Repr, Inhabited

namespace Token

/-- The tokens of a text in which every character belongs to one stretch. -/
def chars (text : String) : List Token :=
  text.toList.map char

end Token

end HtmlLayout.Html
