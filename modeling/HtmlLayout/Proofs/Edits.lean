import HtmlLayout.Html.Parser
import HtmlLayout.Tag
import Mathlib.Logic.Relation

/-!
# What tree construction can do

The rules of tree construction are many, but all of them are made of a few edits. An edit closes
elements, forgets formatting elements, adds a leaf, inserts an element that may be left open, or
inserts an element that is closed at once; some edits belong to one rule, such as moving a block out
of a formatting element. What matters about every edit is what it may leave open: never an element
of markup that cannot have contents.

Here each rule is taken apart into edits, once and for all. What every edit preserves is then
preserved by every token.
-/

namespace HtmlLayout.Html

/-- An element of markup that cannot have contents. A foreign element can, whatever its name. -/
def Kind.isVoid (kind : Kind) : Bool := kind.isHtml && Tag.isVoid kind.name

def Draft.isLeaf : Draft → Bool
  | element .. => false
  | _ => true

namespace Assembly

/-- The tree, the elements that are remembered, and the encodings that were declared. -/
def core (a : Assembly) : List Draft × Nat × List Label × List (Option Label) × Option Label × List String :=
  (a.nodes, a.nextId, a.stack, a.formatting, a.head, a.charsets)

/-- One change to an assembly. Encodings are noted only where `declares` allows it. -/
inductive Edit (declares : Prop) (a : Assembly) : Assembly → Prop where
  | set {b : Assembly} (hcore : b.core = a.core) : Edit declares a b
  | shrink {stack : List Label} (hstack : stack ⊆ a.stack) : Edit declares a { a with stack }
  | thin {formatting : List (Option Label)} (hformatting : formatting ⊆ a.formatting) :
      Edit declares a { a with formatting }
  | mark : Edit declares a a.addMarker
  | list {label : Label} (hlabel : label ∈ a.stack) :
      Edit declares a { a with formatting := a.formatting ++ [some label] }
  | insert {node : Draft} (hnode : node.isLeaf = true) : Edit declares a (a.insert node)
  | append {node : Draft} (hnode : node.isLeaf = true) : Edit declares a (a.append node)
  | appendToRoot {node : Draft} (hnode : node.isLeaf = true) : Edit declares a (a.appendToRoot node)
  | appendToDocument {node : Draft} (hnode : node.isLeaf = true) :
      Edit declares a (a.appendToDocument node)
  | start {kind : Kind} (hkind : kind.isVoid = false) (attrs : List Dom.Attr) :
      Edit declares a (a.insertElement kind attrs)
  | startAndEnd (kind : Kind) (attrs : List Dom.Attr) :
      Edit declares a (a.insertElement kind attrs).pop
  | root : Edit declares a a.insertRoot
  | merge (target : Label) (attrs : List (String × String)) : Edit declares a (a.mergeAttrs target attrs)
  | keepHead {label : Label} (hlabel : label ∈ a.stack) : Edit declares a { a with head := some label }
  | reopenHead {label : Label} (hlabel : a.head = some label) :
      Edit declares a { a with stack := label :: a.stack }
  | detach (id : Nat) :
      Edit declares a { a with nodes := (Draft.detachAll id a.nodes).elim a.nodes Prod.snd }
  | reconstruct : Edit declares a a.reconstruct
  | moveOut {formatting block : Label} (hformatting : some formatting ∈ a.formatting)
      (hblock : block ∈ a.stack) : Edit declares a (a.moveOut formatting block)
  | declare (hdeclares : declares) (label : String) :
      Edit declares a { a with charsets := label :: a.charsets }

/-! ### Insertion changes the tree only -/

theorem append_eq (a : Assembly) (node : Draft) :
    a.append node = { a with nodes := (a.append node).nodes } := by
  unfold append
  split <;> rfl

theorem appendToRoot_eq (a : Assembly) (node : Draft) :
    a.appendToRoot node = { a with nodes := (a.appendToRoot node).nodes } := by
  unfold appendToRoot
  split <;> rfl

theorem placeBeforeTable_eq (a : Assembly) (node : Draft) :
    a.placeBeforeTable node = { a with nodes := (a.placeBeforeTable node).nodes } := by
  unfold placeBeforeTable
  split
  · exact a.appendToRoot_eq node
  split
  · rfl
  · exact a.appendToRoot_eq node

theorem insert_eq (a : Assembly) (node : Draft) :
    a.insert node = { a with nodes := (a.insert node).nodes } := by
  unfold Assembly.insert
  split
  · exact a.placeBeforeTable_eq node
  · exact a.append_eq node

theorem insertElement_eq (a : Assembly) (kind : Kind) (attrs : List Dom.Attr) :
    a.insertElement kind attrs =
      { a with
        nodes := (a.insert (.element (a.freshLabel kind attrs) [])).nodes
        nextId := a.nextId + 1
        stack := a.freshLabel kind attrs :: a.stack } := by
  unfold insertElement
  dsimp only
  rw [insert_eq]

/-! ### Chains of edits -/

theorem mem_formatting_of_lastFormatting? {a : Assembly} {name : String} {label : Label}
    (hlabel : a.lastFormatting? name = some label) : some label ∈ a.formatting := by
  obtain ⟨entry, hentry, hsame⟩ := List.mem_filterMap.mp (List.mem_of_find?_eq_some hlabel)
  have hmem := List.mem_reverse.mp ((List.takeWhile_sublist _).subset hentry)
  rwa [show entry = some label from hsame] at hmem

/-- An assembly that edits make of another one. -/
def Edits (declares : Prop) : Assembly → Assembly → Prop := Relation.ReflTransGen (Edit declares)

variable {declares : Prop} {first a : Assembly} {tag : StartTag}

namespace Edits

theorem edit {b : Assembly} (h : Edits declares first a) (hedit : Edit declares a b) :
    Edits declares first b :=
  Relation.ReflTransGen.tail h hedit

theorem set (h : Edits declares first a) {b : Assembly} (hcore : b.core = a.core) :
    Edits declares first b :=
  h.edit (.set hcore)

theorem ite {condition : Prop} [Decidable condition] {b c : Assembly}
    (hb : condition → Edits declares first b) (hc : Edits declares first c) :
    Edits declares first (if condition then b else c) := by
  by_cases hcondition : condition
  · rw [if_pos hcondition]
    exact hb hcondition
  · rw [if_neg hcondition]
    exact hc

theorem reply {condition : Prop} [Decidable condition] {r s : Reply}
    (hr : condition → Edits declares first r.assembly) (hs : Edits declares first s.assembly) :
    Edits declares first (if condition then r else s).assembly := by
  rw [apply_ite Reply.assembly]
  exact ite hr hs

section Moves

variable (h : Edits declares first a)

include h

/-! ### Open elements -/

theorem shrink {stack : List Label} (hstack : stack ⊆ a.stack) :
    Edits declares first { a with stack } :=
  h.edit (.shrink hstack)

theorem pop : Edits declares first a.pop :=
  h.shrink (List.drop_subset 1 a.stack)

theorem popTo (names : List String) : Edits declares first (a.popTo names) :=
  h.shrink (List.dropWhile_sublist _).subset

theorem popThrough (name : String) : Edits declares first (a.popThrough name) :=
  (h.popTo [name]).pop

theorem popThroughId (id : Nat) : Edits declares first (a.popThroughId id) :=
  h.shrink ((List.drop_sublist 1 _).trans (List.dropWhile_sublist _)).subset

theorem closeImplied (keep : Option String := none) : Edits declares first (a.closeImplied keep) :=
  h.shrink (List.dropWhile_sublist _).subset

theorem close (name : String) (keep : Option String := none) :
    Edits declares first (a.close name keep) :=
  (h.closeImplied keep).popThrough name

theorem filter (keep : Label → Bool) : Edits declares first { a with stack := a.stack.filter keep } :=
  h.shrink List.filter_sublist.subset

/-! ### Insertion -/

theorem insertText (data : String) : Edits declares first (a.insertText data) :=
  h.edit (.insert rfl)

theorem insertHtml {name : String} (hname : Tag.isVoid name = false)
    (attrs : List (String × String) := []) : Edits declares first (a.insertHtml name attrs) :=
  h.edit (@Edit.start _ _ (.html name) hname (plainAttrs attrs))

theorem insertTag {tag : StartTag} (htag : Tag.isVoid tag.name = false) :
    Edits declares first (a.insertTag tag) :=
  h.insertHtml htag tag.attrs

theorem insertEmpty (tag : StartTag) : Edits declares first (a.insertEmpty tag) :=
  h.edit (.startAndEnd (.html tag.name) (plainAttrs tag.attrs))

theorem insertHead (attrs : List (String × String) := []) :
    Edits declares first (a.insertHead attrs) := by
  have hopened : Edits declares first (a.insertHtml "head" attrs) := h.insertHtml (by decide) attrs
  exact (hopened.edit (.keepHead (List.mem_cons_self ..))).set rfl

theorem insertBody : Edits declares first a.insertBody := by
  have hopened : Edits declares first (a.insertHtml "body") := h.insertHtml (by decide)
  exact hopened.set rfl

theorem leaveHead : Edits declares first a.leaveHead := h.pop.set rfl

theorem mergeRoot (attrs : List (String × String)) : Edits declares first (a.mergeRoot attrs) := by
  unfold Assembly.mergeRoot
  split
  · exact h
  · exact h.edit (.merge _ attrs)

theorem insertTextElement {tag : StartTag}
    (htag : Tag.isVoid tag.name = false) (content : Option String → Lexer.Content) :
    Edits declares first (a.insertTextElement tag content) :=
  (h.insertTag htag).set rfl

/-! ### Formatting -/

theorem reconstruct : Edits declares first a.reconstruct := h.edit .reconstruct

theorem thin {formatting : List (Option Label)}
    (hformatting : formatting ⊆ a.formatting) : Edits declares first { a with formatting } :=
  h.edit (.thin hformatting)

theorem clearToMarker : Edits declares first a.clearToMarker := by
  apply h.thin
  intro entry hentry
  have hrest := ((List.drop_sublist 1 _).trans (List.dropWhile_sublist _)).subset
    (List.mem_reverse.mp hentry)
  exact List.mem_reverse.mp hrest

theorem forget (id : Nat) : Edits declares first (a.forget id) :=
  h.thin List.filter_sublist.subset

theorem insertFormatting {tag : StartTag}
    (htag : Tag.isVoid tag.name = false) : Edits declares first (a.insertFormatting tag) := by
  have hopened := h.insertTag htag
  unfold Assembly.insertFormatting
  dsimp only
  split
  · exact hopened
  · next label outer hstack =>
      have hlabel : label ∈ (a.insertTag tag).stack := by simp [hstack]
      split
      · exact (hopened.forget _).edit (.list hlabel)
      · exact hopened.edit (.list hlabel)

theorem endOther (name : String) : Edits declares first (a.endOther name) := by
  unfold Assembly.endOther
  split
  · exact h
  · exact (h.closeImplied _).popThroughId _

theorem adopt (rounds : Nat) (name : String) : Edits declares first (Assembly.adopt rounds a name) := by
  induction rounds generalizing a with
  | zero => exact h
  | succ rounds ih =>
      unfold Assembly.adopt
      split
      · exact h.endOther name
      · next formatting hlast =>
          split
          · exact h.forget _
          split
          · exact h.endOther name
          dsimp only
          split
          · exact (h.popThroughId _).forget _
          · next block hblock =>
              have hinside := List.mem_reverse.mp (List.mem_of_find?_eq_some hblock)
              have hopen := (List.takeWhile_sublist _).subset hinside
              exact ih (h.edit (.moveOut (mem_formatting_of_lastFormatting? hlast) hopen))

theorem endFormatting (name : String) : Edits declares first (a.endFormatting name) :=
  h.adopt 8 name

/-! ### Text -/

theorem bodyText (data : String) : Edits declares first (a.bodyText data) := by
  have hput : Edits declares first (a.putText data) := h.reconstruct.insertText data
  exact ite (fun _ => h) (ite (fun _ => hput) (hput.set rfl))

theorem bodySpace (c : Char) : Edits declares first (a.bodySpace c) := by
  have hkept : Edits declares first { a with dropNewline := false } := h.set rfl
  exact ite (fun _ => hkept) (hkept.reconstruct.insertText _)

theorem flushTable : Edits declares first a.flushTable := by
  have hflushed : Edits declares first { a with pending := "" } := h.set rfl
  have hfostering : Edits declares first { a with pending := "", fostering := true } := h.set rfl
  exact ite (fun _ => hflushed) (ite (fun _ => hflushed.insertText _) ((hfostering.bodyText _).set rfl))

theorem leaveTableText : Edits declares first a.leaveTableText :=
  h.flushTable.set rfl

end Moves

end Edits

end Assembly

end HtmlLayout.Html
