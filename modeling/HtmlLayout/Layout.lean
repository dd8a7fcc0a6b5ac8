import HtmlLayout.Channel
import HtmlLayout.Tag
import HtmlLayout.Text.Blank
import HtmlLayout.Text.Escape

/-!
# Laying out a tree

The walk goes through a tree in document order and writes markup. Every block element starts on a
fresh line at its depth and inline elements flow with the text, so the only thing added to the
plain markup is line breaks. A line break is a newline, the margin, and the indent once for each
level of depth. Children of an element are one level deeper; children of a document are where the
document is.

The end tag of a block element goes on a line of its own only when the content is made of blocks,
which `closingBreak` decides. An inline child anywhere keeps the end tag where the content ends.

Nothing can follow a `plaintext` element, not even the end tags of the elements around it. After
one, the walk returns `Flow.stop` from every level and writes nothing more.

The walk opens a call for each document and two for each element that it goes into. When no more can
be opened it fails on the spot, and what it has written by then stays written.
-/

namespace HtmlLayout

/-- The texts a line break is made of. -/
structure Style where
  /-- Written once at the start of every inserted line. -/
  margin : String := ""
  /-- Written once for each level of depth after the margin. -/
  indent : String := ""
  deriving DecidableEq, Repr, Inhabited

/-- Whether a walk goes on after a node. -/
inductive Flow where
  | proceed
  | stop
  deriving DecidableEq, Repr, Inhabited

/-- Goes on with a walk unless it was stopped. -/
def Flow.andThen (flow : Flow) (next : Run Flow) : Run Flow :=
  match flow with
  | stop => return stop
  | proceed => next

namespace Style

/-- `indent` as often as the depth says. -/
def indentation (style : Style) : Nat → String
  | 0 => ""
  | depth + 1 => style.indent ++ style.indentation depth

def lineBreak (style : Style) (depth : Nat) : String :=
  "\n" ++ style.margin ++ style.indentation depth

end Style

namespace Attribute

/-- The name an attribute is written with. -/
def name (attr : Attribute) : String :=
  if attr.qualifier == "" then attr.key else attr.qualifier ++ ":" ++ attr.key

/-- An attribute as it stands in a start tag, with the space before it. -/
def markup (attr : Attribute) : String :=
  " " ++ attr.name ++ "=\"" ++ Text.escape attr.value ++ "\""

end Attribute

namespace Doctype

/-- An identifier between quotes, single ones if it holds a double quote. -/
def quoted (identifier : String) : String :=
  if identifier.toList.contains '"' then "'" ++ identifier ++ "'" else "\"" ++ identifier ++ "\""

/-- An identifier that is there and not empty. -/
def given? (identifier : Option String) : Option String :=
  identifier.filter (· != "")

def identifiers (declaration : Doctype) : String :=
  match given? declaration.publicId, given? declaration.systemId with
  | some publicId, some systemId => " PUBLIC " ++ quoted publicId ++ " " ++ quoted systemId
  | some publicId, none => " PUBLIC " ++ quoted publicId
  | none, some systemId => " SYSTEM " ++ quoted systemId
  | none, none => ""

def markup (declaration : Doctype) : String :=
  "<!DOCTYPE " ++ declaration.name ++ declaration.identifiers ++ ">"

end Doctype

namespace Node

/-- A start tag without its closing bracket. -/
def startTag (tag : String) (attrs : List Attribute) : String :=
  "<" ++ tag ++ String.join (attrs.map Attribute.markup)

def endTag (tag : String) : String := "</" ++ tag ++ ">"

def commentMarkup (data : String) : String := "<!--" ++ data ++ "-->"

def isInlineElement : Node → Bool
  | element tag _ _ => Tag.isInline tag
  | _ => false

/-- Whether the node that leads an element's children asks for a line break before the end tag: any node does but a text that is not blank. -/
def opensBlock (children : List Node) : Bool :=
  match leading? children with
  | none => false
  | some (text data) => Text.isBlank data
  | some _ => true

/-- Whether an element's end tag goes on its own line. -/
def closingBreak (tag : String) (children : List Node) : Bool :=
  !Tag.isInline tag && !Tag.keepsClosing tag && !children.any isInlineElement && opensBlock children

/-- Whether an element's content starts with a newline that reading would drop. -/
def losesNewline (tag : String) (children : List Node) : Bool :=
  Tag.dropsNewline tag &&
    match leading? children with
    | some (text data) => Text.startsWith data "\n"
    | _ => false

mutual

/-- Writes a node and all below it, with line breaks at `depth`, as far as the calls that are left go. -/
def render (style : Style) (calls depth : Nat) : Node → Run Flow
  | document children => enter calls 1 fun left => renderAll style left depth false children
  | text data => do
      write (Text.escape data)
      return .proceed
  | comment data => do
      write (commentMarkup data)
      return .proceed
  | doctype declaration => do
      write declaration.markup
      return .proceed
  | malformed message => throw (.render (.malformed (malformed message)))
  | unspecified => throw (.render (.unknown unspecified))
  | stray value => throw (.render (.unknown (stray value)))
  | element tag attrs children => enter calls 2 fun left => do
      if Tag.isVoid tag && (leading? children).isSome then
        throw (.render (.voidContent tag))
      if !Tag.isInline tag then
        write (style.lineBreak depth)
      write (startTag tag attrs)
      if Tag.isVoid tag then
        write "/>"
        return .proceed
      else
        write ">"
        if losesNewline tag children then
          write "\n"
        let flow ← renderAll style left (depth + 1) (Tag.isRawText tag) children
        flow.andThen do
          if tag == Tag.plaintext then
            return .stop
          else
            if closingBreak tag children then
              write (style.lineBreak depth)
            write (endTag tag)
            return .proceed

/-- Writes nodes in order until one of them stops the walk. With `raw`, the texts among them are written as they are. -/
def renderAll (style : Style) (calls depth : Nat) (raw : Bool) : List Node → Run Flow
  | [] => return .proceed
  | text data :: rest => do
      write (if raw then data else Text.escape data)
      renderAll style calls depth raw rest
  | node :: rest => do
      let flow ← render style calls depth node
      flow.andThen (renderAll style calls depth raw rest)

end

end Node

end HtmlLayout
