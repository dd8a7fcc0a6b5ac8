/-!
# Node trees

A tree of nodes is what gets laid out. A `document` only groups its children and has no markup of
its own. Trees may also be put together by hand, so they can hold things that have no markup at
all: an error placeholder, a node of no kind, and a plain value that is no node. Whether a tree can
be written is decided when it is laid out, not by its type.
-/

namespace HtmlLayout

/-- An attribute of an element. The qualifier is empty for ordinary attributes; adjusted foreign attributes such as `xlink:href` carry `xlink` there and `href` in the key. -/
structure Attribute where
  key : String
  value : String
  qualifier : String := ""
  deriving DecidableEq, Repr, Inhabited

/-- A document type declaration. An empty identifier is written like a missing one. -/
structure Doctype where
  name : String
  publicId : Option String := none
  systemId : Option String := none
  deriving DecidableEq, Repr, Inhabited

/-- A value that stands in a tree without being a node. -/
inductive Stray where
  | null
  | number (value : Rat)
  | text (value : String)
  deriving DecidableEq, Repr, Inhabited

/-- A node of a tree. -/
inductive Node where
  | document (children : List Node)
  | element (tag : String) (attrs : List Attribute) (children : List Node)
  | text (data : String)
  | comment (data : String)
  | doctype (declaration : Doctype)
  | malformed (message : String)
  | unspecified
  | stray (value : Stray)
  deriving Inhabited

namespace Node

def children : Node → List Node
  | document children => children
  | element _ _ children => children
  | _ => []

/-- The node that leads a list of children. A null in first place counts as nothing there. -/
def leading? : List Node → Option Node
  | [] => none
  | stray .null :: _ => none
  | node :: _ => some node

/-- The first node below a node, if there is one. -/
def firstChild? (node : Node) : Option Node :=
  leading? node.children

mutual

/-- Two nodes are the same when they are of one kind and agree in every field, children included. -/
def same : Node → Node → Bool
  | document xs, document ys => sameAll xs ys
  | element s as xs, element t bs ys => s == t && as == bs && sameAll xs ys
  | text s, text t => s == t
  | comment s, comment t => s == t
  | doctype s, doctype t => s == t
  | malformed s, malformed t => s == t
  | unspecified, unspecified => true
  | stray s, stray t => s == t
  | _, _ => false

/-- Two lists of nodes are the same when they pair up as same nodes. -/
def sameAll : List Node → List Node → Bool
  | [], [] => true
  | x :: xs, y :: ys => same x y && sameAll xs ys
  | _, _ => false

end

mutual

/-- How many calls a walk down a tree has open at once: two for each element on the longest way down and one for each document. -/
def nesting : Node → Nat
  | document children => nestingAll children + 1
  | element _ _ children => nestingAll children + 2
  | _ => 0

def nestingAll : List Node → Nat
  | [] => 0
  | node :: rest => max (nesting node) (nestingAll rest)

end

end Node

end HtmlLayout
