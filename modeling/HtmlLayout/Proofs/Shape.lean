import HtmlLayout.Node
import HtmlLayout.Proofs.Rows
import HtmlLayout.Text.Blank
import Mathlib.Data.List.Chain

/-!
# Shapes of trees

Trees are compared up to part of their text: some characters are deleted from the texts, texts that
are empty then are dropped, and texts that stand side by side then are joined. With whitespace
deleted, this is the shape of a tree.

Whether two lists of nodes agree in this way can be read off a flat form, in which each character
that is kept is a mark of its own. Nodes in a row have the marks of the first, then those of the
next, so nothing has to be said about texts that meet where two lists are joined.
-/

namespace HtmlLayout

namespace Text

def sifted (keep : Char → Bool) (text : String) : String := String.ofList (text.toList.filter keep)

def isVisible (c : Char) : Bool := !isSpace c

end Text

namespace Node

def isText : Node → Bool
  | text _ => true
  | _ => false

/-- No two texts stand side by side. -/
def Apart (nodes : List Node) : Prop :=
  nodes.IsChain fun first next => ¬(first.isText = true ∧ next.isText = true)

instance (nodes : List Node) : Decidable (Apart nodes) :=
  inferInstanceAs (Decidable (nodes.IsChain fun first next =>
    ¬(first.isText = true ∧ next.isText = true)))

/-- Puts a text before nodes. An empty text is dropped, and one that comes to stand before another
is joined with it. -/
def joinText (data : String) (rest : List Node) : List Node :=
  if data = "" then rest
  else
    match rest with
    | text next :: others => text (data ++ next) :: others
    | _ => text data :: rest

theorem joinsText : JoinsText text joinText where
  empty row := if_pos rfl
  text hdata next rest := if_neg hdata
  other hdata row hrow := by
    unfold joinText
    rw [if_neg hdata]
    split
    · next next rest => exact absurd rfl (hrow next rest)
    · rfl

mutual

def sift (keep : Char → Bool) : Node → Node
  | element tag attrs children => element tag attrs (siftAll keep children)
  | node => node

/-- Nodes with only some characters in their texts, without empty texts and without texts side by
side. -/
def siftAll (keep : Char → Bool) : List Node → List Node
  | [] => []
  | text data :: rest => joinText (Text.sifted keep data) (siftAll keep rest)
  | node :: rest => sift keep node :: siftAll keep rest

end

/-- What is left of nodes without the whitespace in their texts. -/
def shapeAll (nodes : List Node) : List Node := siftAll Text.isVisible nodes

end Node

/-! ### Marks -/

/-- A part of the flat form of nodes. -/
inductive Mark where
  | char (c : Char)
  | element (tag : String) (attrs : List Attribute) (content : List Mark)
  | leaf (node : Node)

namespace Mark

def ofText (keep : Char → Bool) (data : String) : List Mark := (data.toList.filter keep).map char

mutual

/-- The nodes of a mark with others after it. -/
def toNodes (rest : List Node) : Mark → List Node
  | char c => Node.joinText (String.singleton c) rest
  | element tag attrs content => .element tag attrs (allToNodes content) :: rest
  | leaf node => node :: rest

def allToNodes : List Mark → List Node
  | [] => []
  | mark :: rest => mark.toNodes (allToNodes rest)

end

mutual

def nesting : Mark → Nat
  | element _ _ content => nestingAll content + 2
  | leaf node => node.nesting
  | char _ => 0

def nestingAll : List Mark → Nat
  | [] => 0
  | mark :: rest => max (nesting mark) (nestingAll rest)

end

theorem rowwise_nestingAll : Rowwise nestingAll nesting max 0 := ⟨rfl, fun _ _ => rfl⟩

theorem nestingAll_append (first rest : List Mark) :
    nestingAll (first ++ rest) = max (nestingAll first) (nestingAll rest) :=
  rowwise_nestingAll.append Nat.zero_max Nat.max_assoc first rest

@[simp] theorem nestingAll_ofText (keep : Char → Bool) (data : String) :
    nestingAll (ofText keep data) = 0 := by
  unfold ofText
  induction data.toList.filter keep with
  | nil => rfl
  | cons c rest ih => simpa [nestingAll, nesting] using ih

theorem allToNodes_ofText (keep : Char → Bool) (data : String) (rest : List Mark) :
    allToNodes (ofText keep data ++ rest) =
      Node.joinText (Text.sifted keep data) (allToNodes rest) := by
  unfold ofText Text.sifted
  induction data.toList.filter keep with
  | nil => simp [Node.joinText]
  | cons c chars ih =>
      have hsplit : String.ofList (c :: chars) = String.singleton c ++ String.ofList chars := by simp
      rw [hsplit, Node.joinsText.append, ← ih]
      rfl

end Mark

namespace Node

mutual

def marks (keep : Char → Bool) : Node → List Mark
  | text data => Mark.ofText keep data
  | element tag attrs children => [.element tag attrs (marksAll keep children)]
  | node => [.leaf node]

def marksAll (keep : Char → Bool) : List Node → List Mark
  | [] => []
  | node :: rest => marks keep node ++ marksAll keep rest

end

theorem rowwise_marksAll (keep : Char → Bool) : Rowwise (marksAll keep) (marks keep) (· ++ ·) [] :=
  ⟨rfl, fun _ _ => rfl⟩

theorem rowwise_nestingAll : Rowwise nestingAll nesting max 0 := ⟨rfl, fun _ _ => rfl⟩

theorem nestingAll_marks (keep : Char → Bool) (node : Node) :
    Mark.nestingAll (node.marks keep) = node.nesting := by
  cases node with
  | text data => simp [marks, nesting]
  | element tag attrs children =>
      have hchildren : Mark.nestingAll (marksAll keep children) = nestingAll children :=
        (rowwise_marksAll keep).map_eq rowwise_nestingAll rfl Mark.nestingAll_append
          fun child _ => nestingAll_marks keep child
      simp [marks, Mark.nestingAll, Mark.nesting, nesting, hchildren]
  | _ => simp [marks, Mark.nestingAll, Mark.nesting]

theorem nestingAll_marksAll (keep : Char → Bool) (nodes : List Node) :
    Mark.nestingAll (marksAll keep nodes) = nestingAll nodes :=
  (rowwise_marksAll keep).map_eq rowwise_nestingAll rfl Mark.nestingAll_append
    fun node _ => nestingAll_marks keep node

mutual

theorem allToNodes_marks (keep : Char → Bool) {node : Node} (hnode : ∀ data, node ≠ text data)
    (rest : List Mark) :
    Mark.allToNodes (node.marks keep ++ rest) = node.sift keep :: Mark.allToNodes rest := by
  cases node with
  | text data => exact absurd rfl (hnode data)
  | element tag attrs children =>
      simp [marks, Mark.allToNodes, Mark.toNodes, sift, siftAll_eq_allToNodes keep children]
  | _ => rfl

/-- The marks of nodes determine what is left of them. -/
theorem siftAll_eq_allToNodes (keep : Char → Bool) (nodes : List Node) :
    siftAll keep nodes = Mark.allToNodes (marksAll keep nodes) := by
  match nodes with
  | [] => rfl
  | node :: rest =>
      have hrest := siftAll_eq_allToNodes keep rest
      rw [marksAll]
      cases node with
      | text data => rw [marks, Mark.allToNodes_ofText, siftAll, hrest]
      | element tag attrs children =>
          rw [allToNodes_marks keep (by simp), siftAll, hrest]
          simp
      | _ =>
          rw [allToNodes_marks keep (by simp), siftAll, hrest]
          simp

end

end Node

end HtmlLayout
