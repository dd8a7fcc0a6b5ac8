import HtmlLayout.Proofs.Escape
import HtmlLayout.Proofs.Faults

/-!
# Texts bring in no markup

Markup is told from text by three characters: the two angle brackets and the double quote. The frame
of a tree is the tree with its texts and attribute values emptied, raw text excepted. A tree and its
frame are written with the same brackets and quotes in the same order and end in the same way at the
same place, so two trees that differ in texts and attribute values only cannot be told apart by their
markup. Texts do decide about line breaks and saving newlines, but a style without brackets and
quotes keeps those out of sight.
-/

namespace HtmlLayout

namespace Text

/-- The characters that markup is recognized by. -/
def isMarkup (c : Char) : Bool := c == '<' || c == '>' || c == '"'

/-- The brackets and quotes of a text in order. -/
def markup (text : String) : List Char := text.toList.filter isMarkup

@[simp] theorem markup_append (first rest : String) :
    markup (first ++ rest) = markup first ++ markup rest := by
  simp [markup]

theorem markup_join (texts : List String) : markup (String.join texts) = texts.flatMap markup := by
  induction texts with
  | nil => rfl
  | cons text rest ih => rw [String.join_cons, markup_append, ih, List.flatMap_cons]

@[simp] theorem markup_escape (text : String) : markup (escape text) = [] := by
  rw [markup, List.filter_eq_nil_iff, toList_escape]
  intro c hc
  obtain ⟨d, -, hd⟩ := List.mem_flatMap.mp hc
  obtain ⟨hless, hgreater, hquote⟩ := ne_special_of_mem_escapeChar hd
  simp [isMarkup, hless, hgreater, hquote]

end Text

namespace Style

/-- A style whose line breaks hold no brackets and no quotes. -/
structure Unmarked (style : Style) : Prop where
  margin : ∀ c ∈ style.margin.toList, Text.isMarkup c = false
  indent : ∀ c ∈ style.indent.toList, Text.isMarkup c = false

variable {style : Style}

theorem markup_indentation (hindent : ∀ c ∈ style.indent.toList, Text.isMarkup c = false)
    (depth : Nat) :
    Text.markup (style.indentation depth) = [] := by
  induction depth with
  | zero => rfl
  | succ depth ih =>
      rw [indentation, Text.markup_append, ih, List.append_nil, Text.markup, List.filter_eq_nil_iff]
      simpa using hindent

theorem Unmarked.markup_lineBreak (hstyle : style.Unmarked) (depth : Nat) :
    Text.markup (style.lineBreak depth) = [] := by
  have hmargin : Text.markup style.margin = [] := by
    rw [Text.markup, List.filter_eq_nil_iff]
    simpa using hstyle.margin
  rw [lineBreak, Text.markup_append, Text.markup_append, hmargin, markup_indentation hstyle.indent]
  rfl

end Style

/-! ### Frames -/

/-- An attribute without its value. -/
def Attribute.emptied (attr : Attribute) : Attribute := { attr with value := "" }

namespace Node

mutual

/-- A tree with empty attribute values and with empty texts, raw text excepted. -/
def frame : Node → Node
  | document children => document (frameAll false children)
  | element tag attrs children =>
      element tag (attrs.map Attribute.emptied) (frameAll (Tag.isRawText tag) children)
  | text _ => text ""
  | node => node

def frameAll (raw : Bool) : List Node → List Node
  | [] => []
  | node :: rest =>
      (match rawText? raw node with
      | some data => text data
      | none => frame node) :: frameAll raw rest

end

theorem markup_startTag (tag : String) (attrs : List Attribute) :
    Text.markup (startTag tag (attrs.map Attribute.emptied)) = Text.markup (startTag tag attrs) := by
  have hattr : ∀ attr : Attribute, Text.markup attr.emptied.markup = Text.markup attr.markup := by
    intro attr
    simp [Attribute.markup, Attribute.emptied, Attribute.name]
  simp only [startTag, Text.markup_append, Text.markup_join, List.flatMap_map, hattr]

theorem isSome_leading?_frameAll (raw : Bool) (children : List Node) :
    (leading? (frameAll raw children)).isSome = (leading? children).isSome := by
  cases children with
  | nil => rfl
  | cons child rest =>
      cases child with
      | stray value => cases value <;> rfl
      | text data => cases raw <;> rfl
      | _ => rfl

end Node

/-! ### Outlines with the same markup -/

def Piece.markup (style : Style) (piece : Piece) : List Char := Text.markup (piece.text style)

namespace Outline

/-- Two outlines that end alike and are written with the same brackets and quotes. -/
structure Agrees (style : Style) (first second : Outline) : Prop where
  ending : first.ending = second.ending
  markup : first.pieces.flatMap (Piece.markup style) = second.pieces.flatMap (Piece.markup style)

variable {style : Style}

theorem Agrees.refl (outline : Outline) : outline.Agrees style outline := ⟨rfl, rfl⟩

theorem Agrees.of {first second : List Piece}
    (hmarkup : first.flatMap (Piece.markup style) = second.flatMap (Piece.markup style)) :
    (Outline.of first).Agrees style (Outline.of second) :=
  ⟨rfl, hmarkup⟩

theorem Agrees.andThen {first second next other : Outline} (hfirst : first.Agrees style second)
    (hnext : next.Agrees style other) :
    (first.andThen next).Agrees style (second.andThen other) := by
  obtain ⟨hending, hmarkup⟩ := hfirst
  unfold Outline.andThen
  rw [← hending]
  split
  · refine ⟨hnext.ending, ?_⟩
    rw [List.flatMap_append, List.flatMap_append, hmarkup, hnext.markup]
  · exact ⟨hending, hmarkup⟩

end Outline

namespace Node

open Outline

variable {style : Style}

theorem agrees_opening (depth : Nat) (tag : String) (attrs : List Attribute)
    {rest others : List Piece}
    (hrest : rest.flatMap (Piece.markup style) = others.flatMap (Piece.markup style)) :
    (Outline.of (openingPieces depth tag (attrs.map Attribute.emptied) ++ rest)).Agrees style
      (Outline.of (openingPieces depth tag attrs ++ others)) := by
  apply Agrees.of
  cases hinline : Tag.isInline tag <;>
    simp [openingPieces, hinline, Piece.markup, Piece.text, markup_startTag] <;> exact hrest

theorem markup_bracket (tag : String) (children : List Node) :
    (bracketPieces tag children).flatMap (Piece.markup style) = ['>'] := by
  cases hloses : losesNewline tag children <;>
    simp [bracketPieces, hloses, Piece.markup, Piece.text, Text.markup, Text.isMarkup]

theorem agrees_closing (hstyle : style.Unmarked) (depth : Nat) (tag : String)
    (children others : List Node) :
    (closingOutline depth tag children).Agrees style (closingOutline depth tag others) := by
  have hbreak : Piece.markup style (.lineBreak depth) = [] := hstyle.markup_lineBreak depth
  have hclosing : ∀ nodes : List Node,
      List.flatMap (Piece.markup style)
        ((if closingBreak tag nodes then [.lineBreak depth] else []) ++ [.literal (endTag tag)]) =
      Text.markup (endTag tag) := by
    intro nodes
    cases closingBreak tag nodes <;> simp [hbreak] <;> rfl
  unfold closingOutline
  split
  · exact Agrees.refl _
  · exact Agrees.of ((hclosing children).trans (hclosing others).symm)

mutual

/-- The frame of a tree has the markup of the tree. -/
theorem agrees_frame (hstyle : style.Unmarked) (depth : Nat) (node : Node) :
    (node.frame.outline depth).Agrees style (node.outline depth) := by
  cases node with
  | document children =>
      rw [frame, outline, outline]
      exact agrees_frameAll hstyle depth false children
  | element tag attrs children =>
      rw [frame, outline, outline, isSome_leading?_frameAll]
      split
      · split
        · exact Agrees.refl _
        · exact agrees_opening depth tag attrs rfl
      · apply Agrees.andThen
        · apply agrees_opening
          rw [markup_bracket, markup_bracket]
        · apply Agrees.andThen
          · exact agrees_frameAll hstyle (depth + 1) (Tag.isRawText tag) children
          · exact agrees_closing hstyle depth tag _ children
  | text data =>
      apply Agrees.of
      simp [Piece.markup, Piece.text]
  | comment data => exact Agrees.refl _
  | doctype declaration => exact Agrees.refl _
  | malformed message => exact Agrees.refl _
  | unspecified => exact Agrees.refl _
  | stray value => exact Agrees.refl _

theorem agrees_frameAll (hstyle : style.Unmarked) (depth : Nat) (raw : Bool) (nodes : List Node) :
    (outlineAll depth raw (frameAll raw nodes)).Agrees style (outlineAll depth raw nodes) := by
  match nodes with
  | [] => exact Agrees.refl _
  | node :: rest =>
      rw [frameAll, outlineAll, outlineAll]
      apply Agrees.andThen
      · have hnode := agrees_frame hstyle depth node
        cases hraw : rawText? raw node with
        | some data =>
            have htrue : raw = true := by
              cases node <;> cases raw <;> simp_all [rawText?]
            subst htrue
            exact Agrees.refl _
        | none =>
            have hframe : rawText? raw node.frame = none := by
              cases node <;> cases raw <;> simp_all [rawText?, frame]
            simp only [hframe]
            exact hnode
      · exact agrees_frameAll hstyle depth raw rest

end

/-! ### Places -/

/-- The error that a node leads to by itself, if it is refused. -/
def refusal? (node : Node) : Option RenderError :=
  if node.isRefused then some node.blame else none

/-- What can be told of a node that was met without its texts: its place and its error, if any. -/
def checked (entry : List Nat × Node) : List Nat × Option RenderError := (entry.1, entry.2.refusal?)

/-- The place of the first node that is refused, with its error. -/
def firstRefusal? (node : Node) : Option (List Nat × RenderError) :=
  (node.visit.met.find? fun entry => entry.2.isRefused).map fun entry => (entry.1, entry.2.blame)

theorem refusal?_frame (node : Node) : node.frame.refusal? = node.refusal? := by
  cases node with
  | element tag attrs children =>
      simp [refusal?, frame, isRefused, blame, isSome_leading?_frameAll]
  | _ => rfl

end Node

namespace Visit

variable {α β : Type}

theorem map_andThen (f : α → β) (first next : Visit α) :
    (first.andThen next).map f = (first.map f).andThen (next.map f) := by
  obtain ⟨met, flow⟩ := first
  cases flow <;> simp [andThen, map]

end Visit

namespace Node

theorem map_checked_shift (number : Nat) (visit : Visit (List Nat × Node)) :
    (visit.map fun entry => (number :: entry.1, entry.2)).map checked =
      (visit.map checked).map fun entry => (number :: entry.1, entry.2) := by
  simp [Visit.map, checked, Function.comp_def]

mutual

/-- The visit of a frame meets the same errors at the same places. -/
theorem visit_frame (node : Node) : node.frame.visit.map checked = node.visit.map checked := by
  cases node with
  | document children =>
      have hbelow := visitAll_frameAll false 0 children
      simp only [Visit.map, Visit.mk.injEq] at hbelow
      simp only [frame, visit, Visit.map, List.map_cons, hbelow]
      rfl
  | element tag attrs children =>
      have hbelow := visitAll_frameAll (Tag.isRawText tag) 0 children
      have hself := refusal?_frame (element tag attrs children)
      simp only [Visit.map, Visit.mk.injEq] at hbelow
      rw [frame] at hself ⊢
      simp only [visit]
      split
      · simp [Visit.map, checked, hself]
      · simp [Visit.map, hbelow, checked, hself]
  | _ => rfl

theorem visitAll_frameAll (raw : Bool) (number : Nat) (nodes : List Node) :
    (visitAll number (frameAll raw nodes)).map checked = (visitAll number nodes).map checked := by
  match nodes with
  | [] => rfl
  | node :: rest =>
      have hrest := visitAll_frameAll raw (number + 1) rest
      have hnode := visit_frame node
      rw [frameAll, visitAll, visitAll, Visit.map_andThen, Visit.map_andThen, hrest,
        map_checked_shift, map_checked_shift, ← hnode]
      cases node <;> cases raw <;> rfl

end

theorem firstRefusal?_eq_checked (node : Node) :
    node.firstRefusal? =
      (node.visit.map checked).met.findSome? fun entry => entry.2.map fun error => (entry.1, error) := by
  unfold firstRefusal? Visit.map
  induction node.visit.met with
  | nil => rfl
  | cons entry rest ih =>
      cases hrefused : entry.2.isRefused with
      | true => simp [checked, refusal?, hrefused]
      | false => simpa [checked, refusal?, hrefused] using ih

end Node

namespace Style

variable {calls : Nat} {style : Style} {node other : Node} {channel : Channel}

theorem text_writeNode (hnesting : node.nesting ≤ calls) (hroom : channel.room = none) :
    ((style.writeNode calls node).run.run channel).2.text =
      channel.text ++ String.join ((node.outline 0).pieces.map (Piece.text style)) := by
  rw [style.writeNode_of_room_none hnesting hroom]
  simp [Channel.text]

theorem writeNode_error_iff (hnesting : node.nesting ≤ calls) (hroom : channel.room = none)
    (error : RenderError) :
    ((style.writeNode calls node).run.run channel).1 = .error (.render error) ↔
      ∃ place, node.firstRefusal? = some (place, error) := by
  have hverdict := writeNode_eq_verdict style hnesting hroom
  rw [Node.verdict, Visit.verdict] at hverdict
  unfold Node.firstRefusal?
  cases hfind : node.visit.met.find? fun entry => entry.2.isRefused with
  | none =>
      rw [hfind] at hverdict
      simp [hverdict.1]
  | some entry =>
      rw [hfind] at hverdict
      simp [hverdict.1]

/-- Texts and attribute values bring in no markup. Two trees with the same frame, written in a style
without brackets and quotes, have the same outcome and the same records, and if they fail, they fail
with the error of the node at one place in both. Their brackets and quotes are the same, one by one. -/
theorem writeNode_markup_eq_of_frame_eq (hstyle : style.Unmarked) (hframe : node.frame = other.frame)
    (hnesting : node.nesting ≤ calls) (hother : other.nesting ≤ calls)
    (hroom : channel.room = none) :
    let first := (style.writeNode calls node).run.run channel
    let second := (style.writeNode calls other).run.run channel
    first.1 = second.1 ∧ first.2.records = second.2.records ∧
      node.firstRefusal? = other.firstRefusal? ∧
      (∀ error, first.1 = .error (.render error) ↔ ∃ place, node.firstRefusal? = some (place, error)) ∧
      Text.markup first.2.text = Text.markup second.2.text := by
  intro first second
  have hagrees : (node.outline 0).ending = (other.outline 0).ending ∧
      (node.outline 0).pieces.flatMap (Piece.markup style) =
        (other.outline 0).pieces.flatMap (Piece.markup style) := by
    have hnode := node.agrees_frame hstyle 0
    have hsecond := other.agrees_frame hstyle 0
    rw [hframe] at hnode
    exact ⟨hnode.ending.symm.trans hsecond.ending, hnode.markup.symm.trans hsecond.markup⟩
  have hplaces : node.firstRefusal? = other.firstRefusal? := by
    rw [Node.firstRefusal?_eq_checked, Node.firstRefusal?_eq_checked, ← node.visit_frame, hframe,
      other.visit_frame]
  refine ⟨?_, ?_, hplaces, writeNode_error_iff hnesting hroom, ?_⟩
  · simp only [first, second, style.writeNode_of_room_none hnesting hroom,
      style.writeNode_of_room_none hother hroom, Outline.result, hagrees.1]
  · simp only [first, second, style.writeNode_of_room_none hnesting hroom,
      style.writeNode_of_room_none hother hroom, Outline.notes, hagrees.1]
  · rw [text_writeNode hnesting hroom, text_writeNode hother hroom]
    simp only [Text.markup_append, Text.markup_join, List.flatMap_map]
    exact congrArg (Text.markup channel.text ++ ·) hagrees.2

/-- A text and a value full of markup against empty ones, where the text also asks for a saving
newline and the empty one for a line break, with a fault after both. -/
theorem writeNode_markup_eq_of_frame_eq_pre :
    let tree : String → Node := fun data =>
      .element "div" [⟨"id", data, ""⟩]
        [.text data, .element "textarea" [] [.text data], .element "script" [] [.text "<\""],
          .malformed "last"]
    let style : Style := { margin := "| ", indent := "\t" }
    style.Unmarked ∧ (tree "\n\"<b>").frame = (tree "").frame ∧
      (tree "\n\"<b>").nesting ≤ defaultCalls ∧ (tree "").nesting ≤ defaultCalls ∧
      ((style.writeNode defaultCalls (tree "\n\"<b>")).run.run {}).1 =
        ((style.writeNode defaultCalls (tree "")).run.run {}).1 ∧
      Text.markup ((style.writeNode defaultCalls (tree "\n\"<b>")).run.run {}).2.text =
        Text.markup ((style.writeNode defaultCalls (tree "")).run.run {}).2.text := by
  intro tree style
  have hstyle : style.Unmarked := ⟨by simp [style, Text.isMarkup], by simp [style, Text.isMarkup]⟩
  have hframe : (tree "\n\"<b>").frame = (tree "").frame := rfl
  have hnesting : (tree "\n\"<b>").nesting ≤ defaultCalls := by decide
  have hother : (tree "").nesting ≤ defaultCalls := by decide
  obtain ⟨hresult, -, -, -, hmarkup⟩ :=
    @writeNode_markup_eq_of_frame_eq defaultCalls style _ _ {} hstyle hframe hnesting hother rfl
  exact ⟨hstyle, hframe, hnesting, hother, hresult, hmarkup⟩

end Style

end HtmlLayout
