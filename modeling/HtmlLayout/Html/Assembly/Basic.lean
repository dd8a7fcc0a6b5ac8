import HtmlLayout.Html.Draft
import HtmlLayout.Html.Lexer.State

/-!
# Putting a document together

An assembly is a document under construction: the draft of its tree, the stack of open elements
with the innermost first, and what else tree construction has to remember. Tokens change it step by
step. This file holds the state and the moves that all rules are made of: inserting a node at the
innermost open element, closing elements, and asking which elements are open in a scope.

What does not belong between the parts of a table is put before the table. While `fostering` is
set, insertion does so whenever the innermost element is one that only holds parts of a table.
-/

namespace HtmlLayout.Html

/-- Where in a document tree construction stands. -/
inductive Mode where
  | initial
  | beforeHtml
  | beforeHead
  | inHead
  | afterHead
  | inBody
  | text
  | inTable
  | inTableText
  | inCaption
  | inColumnGroup
  | inTableBody
  | inRow
  | inCell
  | inSelect
  | inSelectInTable
  | afterBody
  | inFrameset
  | afterFrameset
  | afterAfterBody
  | afterAfterFrameset
  deriving DecidableEq, Repr, Inhabited

/-- A document under construction. -/
structure Assembly where
  /-- The nodes of the document itself, the newest first. -/
  nodes : List Draft := []
  /-- The number of the next element. -/
  nextId : Nat := 0
  /-- The open elements, the innermost first. -/
  stack : List Label := []
  /-- The formatting elements that are carried on into what follows, the oldest first, with markers between. -/
  formatting : List (Option Label) := []
  mode : Mode := .initial
  /-- The mode to go back to after the text of an element. -/
  textReturn : Mode := .inBody
  /-- The mode to go back to after text in a table. -/
  tableReturn : Mode := .inTable
  /-- Text in a table that has not found its place yet. -/
  pending : String := ""
  head : Option Label := none
  /-- The form that is open. -/
  form : Option Nat := none
  /-- Whether a frameset may still replace the body. -/
  framesetOk : Bool := true
  /-- Whether the document type asks for old rules. -/
  oldRules : Bool := false
  /-- Whether the next blank may be a newline to be dropped. -/
  dropNewline : Bool := false
  /-- Whether misplaced nodes go before the table. -/
  fostering : Bool := false
  /-- The element a fragment is read in. -/
  container : Option String := none
  /-- How the text after the last start tag is to be read, if not as data. -/
  content : Option Lexer.Content := none
  /-- Encodings the document has declared so far, the newest first. -/
  charsets : List String := []
  deriving Inhabited

/-- What a rule makes of a token: it is done with it, or the token is to be looked at again. -/
inductive Reply where
  | done (assembly : Assembly)
  | again (assembly : Assembly)
  deriving Inhabited

namespace Reply

def assembly : Reply → Assembly
  | done assembly => assembly
  | again assembly => assembly

end Reply

namespace Assembly

/-! ### Open elements -/

/-- The name of the innermost open element. -/
def currentName (a : Assembly) : String :=
  match a.stack with
  | [] => ""
  | label :: _ => label.name

def isOpen (a : Assembly) (id : Nat) : Bool :=
  a.stack.any (·.id == id)

/-- Whether the search from the innermost element outwards meets an element before the scope ends. -/
def meets (scope : Scope) (wanted : Label → Bool) : List Label → Bool
  | [] => false
  | label :: outer =>
      if wanted label then true
      else if scope.bounds label.kind then false
      else meets scope wanted outer

/-- Whether an element of markup with this name is open in a scope. -/
def inScope (a : Assembly) (scope : Scope) (name : String) : Bool :=
  meets scope (·.kind == .html name) a.stack

/-- Closes the innermost element. -/
def pop (a : Assembly) : Assembly :=
  { a with stack := a.stack.drop 1 }

/-- Closes elements until one of the names is innermost. -/
def popTo (a : Assembly) (names : List String) : Assembly :=
  { a with stack := a.stack.dropWhile fun label => !names.contains label.name }

/-- Closes elements up to and including the first of a name. -/
def popThrough (a : Assembly) (name : String) : Assembly :=
  (a.popTo [name]).pop

/-- Closes elements up to and including the one of a number. -/
def popThroughId (a : Assembly) (id : Nat) : Assembly :=
  { a with stack := (a.stack.dropWhile fun label => label.id != id).drop 1 }

/-- Closes the innermost elements that end of themselves, but none of the name `keep`. -/
def closeImplied (a : Assembly) (keep : Option String := none) : Assembly :=
  { a with stack := a.stack.dropWhile fun label => impliedEnds.contains label.name && some label.name != keep }

/-- Closes the element of a name after those inside it that end of themselves. -/
def close (a : Assembly) (name : String) (keep : Option String := none) : Assembly :=
  (a.closeImplied keep).popThrough name

/-! ### Insertion -/

/-- Adds a node at the end of the element of a number. -/
def appendTo (a : Assembly) (id : Nat) (node : Draft) : Assembly :=
  { a with nodes := (Draft.modifyAll id (Draft.addChild node) a.nodes).getD a.nodes }

/-- Adds a node at the end of the document itself. -/
def appendToDocument (a : Assembly) (node : Draft) : Assembly :=
  { a with nodes := node :: a.nodes }

/-- Adds a node at the end of the innermost element. -/
def append (a : Assembly) (node : Draft) : Assembly :=
  match a.stack with
  | [] => a.appendToDocument node
  | label :: _ => a.appendTo label.id node

/-- Adds a node at the end of the outermost element. -/
def appendToRoot (a : Assembly) (node : Draft) : Assembly :=
  match a.stack.getLast? with
  | none => a.appendToDocument node
  | some root => a.appendTo root.id node

/-- Puts a node right before the innermost table, or at the end of the outermost element where no table is open. -/
def placeBeforeTable (a : Assembly) (node : Draft) : Assembly :=
  match a.stack.find? (·.name == "table") with
  | none => a.appendToRoot node
  | some table =>
      match Draft.placeBeforeAll table.id node a.nodes with
      | some nodes => { a with nodes }
      | none => a.appendToRoot node

/-- Inserts a node at the innermost element, or before the table if it is misplaced. -/
def insert (a : Assembly) (node : Draft) : Assembly :=
  if a.fostering && tableFrames.contains a.currentName then a.placeBeforeTable node else a.append node

def insertText (a : Assembly) (data : String) : Assembly :=
  a.insert (.text data)

/-- Inserts a comment, which is never misplaced. -/
def insertComment (a : Assembly) (data : String) : Assembly :=
  a.append (.comment data)

def freshLabel (a : Assembly) (kind : Kind) (attrs : List Dom.Attr) : Label :=
  { id := a.nextId, kind, attrs }

def insertElement (a : Assembly) (kind : Kind) (attrs : List Dom.Attr) : Assembly :=
  let label := a.freshLabel kind attrs
  let placed := a.insert (.element label [])
  { placed with nextId := a.nextId + 1, stack := label :: a.stack }

def insertHtml (a : Assembly) (name : String) (attrs : List (String × String) := []) : Assembly :=
  a.insertElement (.html name) (plainAttrs attrs)

/-- Inserts the element of a start tag and opens it. -/
def insertTag (a : Assembly) (tag : StartTag) : Assembly :=
  a.insertHtml tag.name tag.attrs

/-- Inserts the element of a start tag that holds nothing. -/
def insertEmpty (a : Assembly) (tag : StartTag) : Assembly :=
  (a.insertTag tag).pop

/-- Starts the document with its outermost element. -/
def insertRoot (a : Assembly) : Assembly :=
  let label := a.freshLabel (.html "html") []
  { a with nodes := .element label [] :: a.nodes, nextId := a.nextId + 1, stack := [label], mode := .beforeHead }

def insertHead (a : Assembly) (attrs : List (String × String) := []) : Assembly :=
  let opened := a.insertHtml "head" attrs
  { opened with head := opened.stack.head?, mode := .inHead }

/-- Inserts a body that no tag asked for. -/
def insertBody (a : Assembly) : Assembly :=
  { a.insertHtml "body" with mode := .inBody, framesetOk := true }

def leaveHead (a : Assembly) : Assembly :=
  { a.pop with mode := .afterHead }

/-- Adds the attributes of a repeated start tag that an open element does not have yet. -/
def mergeAttrs (a : Assembly) (target : Label) (attrs : List (String × String)) : Assembly :=
  let merged := attrs.foldl (fun done entry => Dom.Attr.addMissing done entry.1 entry.2) target.attrs
  { a with
    nodes := (Draft.modifyAll target.id (Draft.setAttrs merged) a.nodes).getD a.nodes
    stack := a.stack.map fun label => if label.id == target.id then { label with attrs := merged } else label }

/-- Adds the attributes of a repeated start tag to the outermost element. -/
def mergeRoot (a : Assembly) (attrs : List (String × String)) : Assembly :=
  match a.stack.getLast? with
  | none => a
  | some root => a.mergeAttrs root attrs

/-- The body, if it is the outermost element but one. -/
def openBody? (a : Assembly) : Option Label :=
  match a.stack.reverse with
  | _ :: body :: _ => if body.name == "body" then some body else none
  | _ => none

/-- Inserts the element of a start tag whose content is text, to be read in a way of its own. -/
def insertTextElement (a : Assembly) (tag : StartTag) (content : Option String → Lexer.Content) : Assembly :=
  { a.insertTag tag with content := some (content (some tag.name)), textReturn := a.mode, mode := .text }

/-! ### Modes -/

/-- The mode inside an element, for those that have one of their own. -/
def modeInside (name : String) : Option Mode :=
  match name with
  | "select" => some .inSelect
  | "td" => some .inCell
  | "th" => some .inCell
  | "tr" => some .inRow
  | "tbody" => some .inTableBody
  | "thead" => some .inTableBody
  | "tfoot" => some .inTableBody
  | "caption" => some .inCaption
  | "colgroup" => some .inColumnGroup
  | "table" => some .inTable
  | "head" => some .inBody
  | "body" => some .inBody
  | "frameset" => some .inFrameset
  | "html" => some .beforeHead
  | _ => none

/-- The mode that the open elements call for. A fragment's outermost element counts as the element it is read in. -/
def modeFor (container : Option String) : List Label → Mode
  | [] => .inBody
  | [_] => (container.bind modeInside).getD .inBody
  | label :: outer =>
      match if label.kind.isHtml then modeInside label.name else none with
      | some mode => mode
      | none => modeFor container outer

/-- Goes to the mode that the open elements call for. -/
def resetMode (a : Assembly) : Assembly :=
  { a with mode := modeFor a.container a.stack }

end Assembly

end HtmlLayout.Html
