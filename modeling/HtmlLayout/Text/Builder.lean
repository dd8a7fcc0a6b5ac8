/-!
# Collecting text

A builder takes texts one after the other and joins them once at the end. An empty text leaves no
part behind, which the joined result cannot show.
-/

namespace HtmlLayout.Text

/-- The parts taken so far, in order. -/
structure Builder where
  parts : Array String := #[]
  deriving Inhabited

namespace Builder

def write (builder : Builder) (text : String) : Builder :=
  if text == "" then builder else { parts := builder.parts.push text }

/-- How many characters taking a text counts for. -/
def count (text : String) : Nat := text.length

def build (builder : Builder) : String :=
  String.join builder.parts.toList

/-- A builder that has taken the texts of a list. -/
def takeAll (builder : Builder) (texts : List String) : Builder :=
  texts.foldl write builder

end Builder

end HtmlLayout.Text
