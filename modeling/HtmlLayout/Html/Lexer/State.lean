import HtmlLayout.Html.Reference
import HtmlLayout.Html.Token

/-!
# States of the lexer

Where a lexer stands between two characters, together with the part of a token read so far. The
parts that only some states have stand in those states, so a state never holds a tag that is not
being read.
-/

namespace HtmlLayout.Html.Lexer

/-- How the text at hand is read. Outside of plain data, markup ends only with the end tag of the element that started it; where no element did, with nothing. -/
inductive Content where
  | data
  /-- Text with references. -/
  | rcdata (closer : Option String)
  /-- Text without references. -/
  | rawtext (closer : Option String)
  /-- Text without references in which comments hide end tags. -/
  | script (closer : Option String)
  /-- Text to the end. -/
  | plaintext
  deriving DecidableEq, Repr, Inhabited

namespace Content

/-- The name of the end tag that ends the text. -/
def closer : Content → Option String
  | data => none
  | rcdata closer => closer
  | rawtext closer => closer
  | script closer => closer
  | plaintext => none

end Content

/-- A tag that is being read. -/
structure OpenTag where
  closing : Bool := false
  name : String
  /-- Attributes read so far, the newest first. -/
  attrs : List (String × String) := []
  selfClosing : Bool := false
  deriving DecidableEq, Repr, Inhabited

namespace OpenTag

/-- Adds an attribute unless one of its name is there. -/
def add (tag : OpenTag) (name value : String) : OpenTag :=
  if tag.attrs.any fun entry => entry.1 == name then tag
  else { tag with attrs := (name, value) :: tag.attrs }

def token (tag : OpenTag) : Token :=
  if tag.closing then .endTag tag.name
  else .startTag { name := tag.name, attrs := tag.attrs.reverse, selfClosing := tag.selfClosing }

end OpenTag

/-- How an attribute value is quoted. -/
inductive Quote where
  | double
  | single
  | bare
  deriving DecidableEq, Repr, Inhabited

/-- Where in a comment the lexer stands: dashes and a bang that may end it are held back. -/
inductive CommentPart where
  | start
  | startDash
  | body
  | endDash
  | endDashes
  | endBang
  deriving DecidableEq, Repr, Inhabited

/-- A document type that is being read. -/
structure Declaration where
  name : String := ""
  publicId : Option String := none
  systemId : Option String := none
  correct : Bool := true
  deriving DecidableEq, Repr, Inhabited

namespace Declaration

def token (declaration : Declaration) : Token :=
  .doctype declaration.name declaration.publicId declaration.systemId declaration.correct

end Declaration

/-- Where in a document type the lexer stands. -/
inductive DoctypePart where
  | afterWord
  | beforeName
  | name
  | afterName
  /-- After letters of one of the words that announce an identifier. -/
  | keyword (seen : String)
  | afterPublicWord
  | beforePublic
  | publicId (double : Bool)
  | afterPublic
  | between
  | afterSystemWord
  | beforeSystem
  | systemId (double : Bool)
  | afterSystem
  /-- What follows up to the closing bracket is passed over. -/
  | bogus
  deriving DecidableEq, Repr, Inhabited

/-- Where in a script the lexer stands after a comment has been opened in it. Inside such a comment a script start tag hides the next script end tag. -/
inductive ScriptPart where
  | escapeStart
  | escapeStartDash
  | escaped
  | escapedDash
  | escapedDashes
  | escapedLess
  | escapedEndOpen
  | escapedEndName (seen : String)
  | doubleStart (seen : String)
  | doubled
  | doubledDash
  | doubledDashes
  | doubledLess
  | doubleEnd (seen : String)
  deriving DecidableEq, Repr, Inhabited

/-- Where a lexer stands. -/
inductive State where
  /-- In text; `inRun` tells whether a stretch of text has started. -/
  | text (content : Content) (inRun : Bool)
  | reference (content : Content) (ref : Reference)
  | tagOpen
  | endTagOpen
  | tagName (tag : OpenTag)
  | beforeAttribute (tag : OpenTag)
  | attributeName (tag : OpenTag) (name : String)
  | afterAttributeName (tag : OpenTag) (name : String)
  | beforeValue (tag : OpenTag) (name : String)
  | value (quote : Quote) (tag : OpenTag) (name value : String)
  | valueReference (quote : Quote) (tag : OpenTag) (name value : String) (ref : Reference)
  | afterValue (tag : OpenTag)
  /-- After a slash in a tag. -/
  | slash (tag : OpenTag)
  /-- After an opening bracket in text that only an end tag can end. -/
  | rawLess (content : Content)
  | rawEndOpen (content : Content)
  | rawEndName (content : Content) (seen : String)
  | script (closer : Option String) (part : ScriptPart)
  /-- After an opening bracket and a bang, and characters of what they may announce. -/
  | declaration (seen : String)
  | bogusComment (data : String)
  | comment (part : CommentPart) (data : String)
  | doctype (part : DoctypePart) (declaration : Declaration)
  /-- In character data, after closing brackets that may end it. -/
  | cdata (brackets : Nat)
  deriving Inhabited

end HtmlLayout.Html.Lexer
