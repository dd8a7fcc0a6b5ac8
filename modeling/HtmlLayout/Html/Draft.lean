import HtmlLayout.Dom.Tree
import HtmlLayout.Html.Category

/-!
# Document trees in the making

While a document is read, its tree grows at places that tree construction refers back to: the open
elements, the element a list of formatting remembers, the head. An element of a draft therefore
carries a number of its own, and every change names the element it happens at.

Children are kept newest first. The place where a tree grows is nearly always its newest end, so a
search that looks at the newest child first finds it after as many steps as the place is deep.
-/

namespace HtmlLayout.Html

/-- An element of a draft without its children. -/
structure Label where
  id : Nat
  kind : Kind
  attrs : List Dom.Attr := []
  deriving DecidableEq, Repr, Inhabited

namespace Label

def name (label : Label) : String := label.kind.name

end Label

/-- A node of a draft. -/
inductive Draft where
  | element (label : Label) (children : List Draft)
  | text (data : String)
  | comment (data : String)
  | doctype (name : String) (publicId systemId : Option String)
  deriving Inhabited

namespace Draft

def id? : Draft → Option Nat
  | element label _ => some label.id
  | _ => none

mutual

/-- Changes the element of a number, if it is here. -/
def modify (id : Nat) (change : Label → List Draft → Draft) : Draft → Option Draft
  | element label children =>
      if label.id == id then some (change label children)
      else (modifyAll id change children).map (element label)
  | _ => none

/-- Changes the first element of a number among siblings. -/
def modifyAll (id : Nat) (change : Label → List Draft → Draft) : List Draft → Option (List Draft)
  | [] => none
  | node :: rest =>
      match modify id change node with
      | some changed => some (changed :: rest)
      | none => (modifyAll id change rest).map (node :: ·)

end

mutual

/-- Puts a node right before the element of a number, if that is below. -/
def placeBefore (id : Nat) (fresh : Draft) : Draft → Option Draft
  | element label children => (placeBeforeAll id fresh children).map (element label)
  | _ => none

/-- Puts a node right before the element of a number among siblings or below them. -/
def placeBeforeAll (id : Nat) (fresh : Draft) : List Draft → Option (List Draft)
  | [] => none
  | node :: rest =>
      if node.id? == some id then some (node :: fresh :: rest)
      else
        match placeBefore id fresh node with
        | some changed => some (changed :: rest)
        | none => (placeBeforeAll id fresh rest).map (node :: ·)

end

mutual

/-- Takes the element of a number out, if it is below. -/
def detach (id : Nat) : Draft → Option (Draft × Draft)
  | element label children =>
      (detachAll id children).map fun (taken, left) => (taken, element label left)
  | _ => none

/-- Takes the element of a number out from among siblings or below them. -/
def detachAll (id : Nat) : List Draft → Option (Draft × List Draft)
  | [] => none
  | node :: rest =>
      if node.id? == some id then some (node, rest)
      else
        match detach id node with
        | some (taken, left) => some (taken, left :: rest)
        | none => (detachAll id rest).map fun (taken, left) => (taken, node :: left)

end

mutual

def childrenOf? (id : Nat) : Draft → Option (List Draft)
  | element label children =>
      if label.id == id then some children else childrenOfAll? id children
  | _ => none

/-- The children of the element of a number among siblings or below them. -/
def childrenOfAll? (id : Nat) : List Draft → Option (List Draft)
  | [] => none
  | node :: rest => (childrenOf? id node).orElse fun _ => childrenOfAll? id rest

end

def addChild (fresh : Draft) (label : Label) (children : List Draft) : Draft :=
  element label (fresh :: children)

def setAttrs (attrs : List Dom.Attr) (label : Label) (children : List Draft) : Draft :=
  element { label with attrs } children

mutual

def toDom : Draft → Dom
  | element label children => .element label.name label.attrs (toDoms children [])
  | text data => .text data
  | comment data => .comment data
  | doctype name publicId systemId => Dom.doctypeNamed name publicId systemId

/-- The finished siblings, oldest first, before others. -/
def toDoms : List Draft → List Dom → List Dom
  | [], later => later
  | node :: rest, later => toDoms rest (toDom node :: later)

end

end Draft

end HtmlLayout.Html
