import HtmlLayout.Node

/-!
# What can go wrong

Failures are told apart by cause. Parsing fails on a source that cannot be read and on a document
node that has no counterpart in the tree, laying out fails on what has no markup, and options fail
on a value of the wrong kind. A failing output is not wrapped: its failure reaches the caller as it
is, in the output's own words. The wording of every other message stands in this file.
-/

namespace HtmlLayout

/-- Why a tree cannot be written. -/
inductive RenderError where
  /-- An error placeholder. -/
  | malformed (node : Node)
  /-- Something that is no node of a known kind. -/
  | unknown (node : Node)
  /-- An element that must be empty and is not. -/
  | voidContent (tag : String)
  deriving Inhabited

/-- Kinds of trouble a reader of markup reports. The first four stop the parse, the others concern the machine and pass through. -/
inductive ReadTrouble where
  | value
  | lookup
  | key
  | index
  | device
  | internal
  deriving DecidableEq, Repr, Inhabited

/-- Trouble of the reader together with what it said. -/
structure ReadFault where
  trouble : ReadTrouble
  text : String
  deriving DecidableEq, Repr, Inhabited

/-- A source that could not be turned into a tree. The cause is kept when the reader itself gave up. -/
structure ParseError where
  detail : String
  sourceName : Option String := none
  cause : Option ReadTrouble := none
  deriving DecidableEq, Repr, Inhabited

/-- An option with a value it cannot take. -/
structure OptionError where
  option : String
  detail : String
  deriving DecidableEq, Repr, Inhabited

/-- Every way an operation can end early. -/
inductive Failure where
  | parse (error : ParseError)
  | render (error : RenderError)
  | option (error : OptionError)
  /-- The output did not do what was asked of it. -/
  | output (words : String)
  /-- Trouble of the reader that is none of the parser's business. -/
  | reader (fault : ReadFault)
  /-- A walk with no calls left to go further down. -/
  | tooDeep
  deriving Inhabited

namespace RenderError

/-- What every message about a tree starts with. -/
def say (text : String) : String := "html: " ++ text

def message : RenderError → String
  | malformed _ => say "cannot render an ErrorNode node"
  | unknown _ => say "unknown node type"
  | voidContent tag => say ("void element <" ++ tag ++ "> has child nodes")

end RenderError

namespace ParseError

/-- A name of the source, if there is one, goes in front of the detail. -/
def message (error : ParseError) : String :=
  match error.sourceName with
  | none => error.detail
  | some name => if name == "" then error.detail else name ++ ": " ++ error.detail

end ParseError

namespace OptionError

def message (error : OptionError) : String :=
  "Option '" ++ error.option ++ "': " ++ error.detail

end OptionError

/-- The words for a tree that is nested too deeply. -/
def tooDeepMessage : String := "input is nested too deeply to render"

namespace Failure

def message : Failure → String
  | parse error => error.message
  | render error => error.message
  | option error => error.message
  | output words => words
  | reader fault => fault.text
  | tooDeep => tooDeepMessage

end Failure

end HtmlLayout
