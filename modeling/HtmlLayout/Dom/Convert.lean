import HtmlLayout.Dom.Tree
import HtmlLayout.Node

/-!
# From a document tree to nodes

The conversion walks the tree with stacks of its own, so its depth is bounded by memory alone. One
stack holds the levels in progress: the element each is about and the children that are still to be
visited. The other holds the nodes already made for each level. An element is finished once all its
children are; then both stacks lose their top, and the element joins the nodes of the level around.
A turn that finds a stack empty where it needs its top is stranded.

A node of a kind the node tree has no counterpart for ends the walk at once, so it is the first
such node in document order that is reported.
-/

namespace HtmlLayout.Dom

/-- An attribute of a node. A prefix that is there and not empty becomes the qualifier; otherwise the name stays whole. -/
def Attr.toAttribute (attr : Attr) : Attribute :=
  match attr.lead with
  | none => { key := attr.name, value := attr.value }
  | some lead =>
      if lead == "" then { key := attr.name, value := attr.value }
      else { key := attr.leaf, value := attr.value, qualifier := lead }

/-- An identifier, missing if it is empty. -/
def presentId (identifier : Option String) : Option String :=
  identifier.filter (· != "")

/-- The node of a leaf, or the number of a kind that has no counterpart. -/
def leafNode : Dom → Except Nat Node
  | text data => .ok (.text data)
  | cdata data => .ok (.text data)
  | comment data => .ok (.comment data)
  | doctype name publicId systemId =>
      .ok (.doctype { name, publicId := presentId publicId, systemId := presentId systemId })
  | other kind => .error kind
  | element _ _ _ => .error 1

/-- A level of the walk: an element, and those of its children that are still to be visited. -/
structure Frame where
  tag : String := ""
  attrs : List Attr := []
  pending : List Dom
  deriving Inhabited

/-- The state of the walk: two stacks, the innermost level first. -/
structure Walk where
  frames : List Frame
  /-- The nodes made for each level, the newest first. -/
  made : List (List Node)
  deriving Inhabited

/-- What a turn of the walk comes to. -/
inductive Turn where
  | goesOn (walk : Walk)
  | finished (nodes : List Node)
  /-- A node has no counterpart. -/
  | unsupported (kind : Nat)
  /-- A stack is empty. -/
  | stranded
  deriving Inhabited

namespace Walk

/-- The walk over a list of siblings before its first turn. -/
def start (siblings : List Dom) : Walk := { frames := [{ pending := siblings }], made := [[]] }

/-- Adds a node to those of the innermost level. -/
def add (node : Node) (frames : List Frame) : List (List Node) → Turn
  | [] => .stranded
  | nodes :: rest => .goesOn { frames, made := (node :: nodes) :: rest }

/-- Leaves a level that has no more children. The outermost one gives the result. -/
def leave (frame : Frame) (outer : List Frame) : List (List Node) → Turn
  | [] => .stranded
  | nodes :: rest =>
      match outer with
      | [] => .finished nodes.reverse
      | _ :: _ => add (.element frame.tag (frame.attrs.map Attr.toAttribute) nodes.reverse) outer rest

def turn (walk : Walk) : Turn :=
  match walk.frames with
  | [] => .stranded
  | frame :: outer =>
      match frame.pending with
      | [] => leave frame outer walk.made
      | element tag attrs children :: pending =>
          .goesOn
            { frames := { tag, attrs, pending := children } :: { frame with pending } :: outer
              made := [] :: walk.made }
      | leaf :: pending =>
          match leafNode leaf with
          | .error kind => .unsupported kind
          | .ok node => add node ({ frame with pending } :: outer) walk.made

/-- Turn after turn, until one of them is the last or all that are allowed have been made. -/
def run : Nat → Walk → Turn
  | 0, walk => .goesOn walk
  | turns + 1, walk =>
      match walk.turn with
      | .goesOn next => run turns next
      | last => last

end Walk

mutual

/-- How many turns a node takes. -/
def turns : Dom → Nat
  | element _ _ children => turnsAll children + 2
  | _ => 1

def turnsAll : List Dom → Nat
  | [] => 0
  | node :: rest => turns node + turnsAll rest

end

/-- The nodes of a list of siblings, or the kind of the first node without a counterpart. A walk that has neither would count as kind zero, which no node has. -/
def toNodes (siblings : List Dom) : Except Nat (List Node) :=
  match Walk.run (turnsAll siblings + 1) (.start siblings) with
  | .finished nodes => .ok nodes
  | .unsupported kind => .error kind
  | .goesOn _ => .error 0
  | .stranded => .error 0

end HtmlLayout.Dom
