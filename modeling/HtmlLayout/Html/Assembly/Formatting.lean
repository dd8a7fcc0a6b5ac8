import HtmlLayout.Html.Assembly.Basic

/-!
# Formatting elements

A formatting element such as `b` goes on in what follows when something else closes it before its
end tag. The list of formatting elements remembers those; before text or another element is
inserted, the ones that are no longer open are opened anew. A marker in the list keeps the contents
of a table cell or an embedded object apart from what is around it.

When the end tag of a formatting element comes inside a block that was opened after it, the block
is moved out of the element and the part of its content that was formatted gets a copy of the
element around it. `adopt` does this, block by block.
-/

namespace HtmlLayout.Html.Assembly

/-! ### The list -/

/-- Whether an entry of the list needs no opening: a marker or an element that is open. -/
def isSettled (a : Assembly) : Option Label → Bool
  | none => true
  | some label => a.isOpen label.id

/-- Opens an element of the list anew and puts the new one into the list. -/
def reopen (a : Assembly) (entry : Option Label) : Assembly :=
  match entry with
  | none => a
  | some label =>
      let opened := a.insertElement label.kind (plainAttrs (label.attrs.map fun attr => (attr.name, attr.value)))
      { opened with formatting := a.formatting ++ [opened.stack.head?] }

/-- Opens the formatting elements that something else has closed, the oldest first. -/
def reconstruct (a : Assembly) : Assembly :=
  let lost := (a.formatting.reverse.takeWhile fun entry => !a.isSettled entry).reverse
  if lost.isEmpty then a
  else lost.foldl reopen { a with formatting := a.formatting.take (a.formatting.length - lost.length) }

def addMarker (a : Assembly) : Assembly :=
  { a with formatting := a.formatting ++ [none] }

/-- Removes the end of the list up to and including the last marker. -/
def clearToMarker (a : Assembly) : Assembly :=
  { a with formatting := ((a.formatting.reverse.dropWhile Option.isSome).drop 1).reverse }

/-- The elements of the list after the last marker, the newest first. -/
def recentFormatting (a : Assembly) : List Label :=
  (a.formatting.reverse.takeWhile Option.isSome).filterMap id

/-- The newest element of a name after the last marker. -/
def lastFormatting? (a : Assembly) (name : String) : Option Label :=
  a.recentFormatting.find? (·.name == name)

def forget (a : Assembly) (id : Nat) : Assembly :=
  { a with formatting := a.formatting.filter fun entry => entry.map Label.id != some id }

def isFormatting (a : Assembly) (id : Nat) : Bool :=
  a.formatting.any fun entry => entry.map Label.id == some id

/-- Whether two elements have the same attributes, in whatever order. -/
def sameAttrs (as bs : List Dom.Attr) : Bool :=
  as.length == bs.length && as.all fun x => bs.any fun y => x.name == y.name && x.value == y.value

/-- Inserts a formatting element and puts it into the list, which holds at most three alike after the last marker. -/
def insertFormatting (a : Assembly) (tag : StartTag) : Assembly :=
  let opened := a.insertTag tag
  match opened.stack with
  | [] => opened
  | label :: _ =>
      let alike := opened.recentFormatting.filter fun old => old.kind == label.kind && sameAttrs old.attrs label.attrs
      let kept := match alike with
        | [_, _, oldest] => opened.forget oldest.id
        | _ => opened
      { kept with formatting := kept.formatting ++ [some label] }

/-! ### End tags without a rule of their own -/

/-- The open element that an end tag closes: the innermost of the name, unless a special element is in between. -/
def closes? (name : String) : List Label → Option Label
  | [] => none
  | label :: outer =>
      if label.name == name then some label
      else if label.kind.isSpecial then none
      else closes? name outer

/-- The end tag of an element without a rule of its own. -/
def endOther (a : Assembly) (name : String) : Assembly :=
  match closes? name a.stack with
  | none => a
  | some label => (a.closeImplied (some name)).popThroughId label.id

/-! ### Misnested formatting -/

/-- A block on its way out of a formatting element. -/
structure Move where
  assembly : Assembly
  /-- What is moved: the block, inside copies of the elements around it. -/
  carried : Draft
  /-- Where in the list the copy of the formatting element will go. -/
  bookmark : Nat
  /-- Open elements that stay between the block and the formatting element, the innermost first. -/
  kept : List Label := []

def positionOf (a : Assembly) (id : Nat) : Nat :=
  a.formatting.findIdx fun entry => entry.map Label.id == some id

/-- A copy of an element under a new number. -/
def copyOf (a : Assembly) (label : Label) : Label :=
  { id := a.nextId, kind := label.kind, attrs := Dom.Attr.copied label.attrs }

/-- Puts a copy in the place of an element in the list. -/
def replaceFormatting (a : Assembly) (id : Nat) (copy : Label) : Assembly :=
  { a with formatting := a.formatting.map fun entry => if entry.map Label.id == some id then some copy else entry }

/-- Goes through the elements around a block, the innermost first and at most `count` of them: those that are not in the list of formatting elements are closed, and the others get a copy around what is moved. -/
def wrap (count : Nat) (first : Bool) (move : Move) (around : List Label) : Move :=
  match count, around with
  | 0, _ => { move with kept := move.kept ++ around }
  | _, [] => move
  | count + 1, label :: outer =>
      if move.assembly.isFormatting label.id then
        let a := move.assembly
        let copy := a.copyOf label
        wrap count false
          { assembly := { a.replaceFormatting label.id copy with nextId := a.nextId + 1 }
            carried := .element copy [move.carried]
            bookmark := if first then a.positionOf label.id + 1 else move.bookmark
            kept := move.kept ++ [copy] }
          outer
      else wrap count first move outer

def insertAt {α : Type} (position : Nat) (x : α) (xs : List α) : List α :=
  xs.take position ++ x :: xs.drop position

/-- Moves a block out of a formatting element that is open around it. -/
def moveOut (a : Assembly) (formatting block : Label) : Assembly :=
  let inside := a.stack.takeWhile fun label => label.id != block.id
  let outside := (a.stack.dropWhile fun label => label.id != block.id).drop 1
  let around := outside.takeWhile fun label => label.id != formatting.id
  let below := (outside.dropWhile fun label => label.id != formatting.id).drop 1
  let copy := a.copyOf formatting
  let (taken, left) := (Draft.detachAll block.id a.nodes).getD (.element block [], a.nodes)
  let carried := match taken with
    | .element label children => .element label [.element copy children]
    | other => other
  let moved := wrap 3 true
    { assembly := { a with nodes := left, nextId := a.nextId + 1 }, carried, bookmark := a.positionOf formatting.id }
    around
  let placed := match below with
    | [] => moved.assembly.appendToDocument moved.carried
    | ancestor :: _ =>
        if tableFrames.contains ancestor.name then moved.assembly.placeBeforeTable moved.carried
        else moved.assembly.appendTo ancestor.id moved.carried
  let listed := placed.forget formatting.id
  { listed with
    formatting := insertAt moved.bookmark (some copy) listed.formatting
    stack := inside ++ copy :: block :: (moved.kept ++ below) }

/-- The end tag of a formatting element: blocks inside it are moved out, at most as many as `rounds` says. -/
def adopt (rounds : Nat) (a : Assembly) (name : String) : Assembly :=
  match rounds with
  | 0 => a
  | rounds + 1 =>
      match a.lastFormatting? name with
      | none => a.endOther name
      | some formatting =>
          if !a.isOpen formatting.id then a.forget formatting.id
          else if !a.inScope .ordinary formatting.name then a.endOther name
          else
            let inside := a.stack.takeWhile fun label => label.id != formatting.id
            match inside.reverse.find? (·.kind.isSpecial) with
            | none => (a.popThroughId formatting.id).forget formatting.id
            | some block => adopt rounds (a.moveOut formatting block) name

def endFormatting (a : Assembly) (name : String) : Assembly :=
  adopt 8 a name

end HtmlLayout.Html.Assembly
