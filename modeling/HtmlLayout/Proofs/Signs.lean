import HtmlLayout.Proofs.Escape
import HtmlLayout.Proofs.Outline
import HtmlLayout.Proofs.Shape

/-!
# The signs of a written tree

The text of a tree that is made of elements, texts and comments is a row of signs: single characters
of text, start tags, end tags, comments, and elements of raw text as wholes. A character stands for
itself here, whatever it is written as, and a line break in a blank style is a run of characters
like any other. `toText_eq_signs` says that a tree is written as the spelling of its signs.

What can be learned from the written text is therefore settled in two steps that know nothing of
each other: how signs are told apart in the text, and how the tree is found in the signs.
-/

namespace HtmlLayout

/-- A part of written markup. -/
inductive Sign where
  | char (c : Char)
  | opening (tag : String) (attrs : List Attribute)
  | empty (tag : String) (attrs : List Attribute)
  | closing (tag : String)
  | comment (data : String)
  /-- An element of raw text with all its content. -/
  | raw (tag : String) (attrs : List Attribute) (body : List Char)
  deriving DecidableEq

namespace Sign

/-- What a sign is written as. -/
def spell : Sign → List Char
  | char c => Text.escapeChar c
  | opening tag attrs => (Node.startTag tag attrs).toList ++ ['>']
  | empty tag attrs => (Node.startTag tag attrs).toList ++ ['/', '>']
  | closing tag => (Node.endTag tag).toList
  | comment data => (Node.commentMarkup data).toList
  | raw tag attrs body => (Node.startTag tag attrs).toList ++ '>' :: (body ++ (Node.endTag tag).toList)

def spellAll (signs : List Sign) : List Char := signs.flatMap spell

@[simp] theorem spellAll_nil : spellAll [] = [] := rfl

@[simp] theorem spellAll_cons (sign : Sign) (rest : List Sign) :
    spellAll (sign :: rest) = sign.spell ++ spellAll rest := rfl

@[simp] theorem spellAll_append (first rest : List Sign) :
    spellAll (first ++ rest) = spellAll first ++ spellAll rest :=
  List.flatMap_append

theorem spellAll_chars (text : List Char) : spellAll (text.map char) = text.flatMap Text.escapeChar :=
  List.flatMap_map ..

theorem spellAll_blank {text : List Char} (hblank : ∀ c ∈ text, Text.isSpace c = true) :
    spellAll (text.map char) = text := by
  induction text with
  | nil => rfl
  | cons c rest ih =>
      obtain ⟨hc, hrest⟩ := List.forall_mem_cons.mp hblank
      rw [List.map_cons, spellAll_cons, spell, Text.escapeChar_of_isSpace hc, ih hrest]
      rfl

end Sign

/-! ### Blank styles -/

namespace Style

/-- A style whose line breaks are whitespace. -/
structure Blank (style : Style) : Prop where
  margin : Text.isBlank style.margin = true
  indent : Text.isBlank style.indent = true

theorem isSpace_of_mem_indentation {style : Style} (hindent : Text.isBlank style.indent = true)
    (depth : Nat) :
    ∀ c ∈ (style.indentation depth).toList, Text.isSpace c = true := by
  induction depth with
  | zero => simp [indentation]
  | succ depth ih =>
      intro c hc
      rw [indentation, String.toList_append, List.mem_append] at hc
      rcases hc with hc | hc
      · exact List.all_eq_true.mp hindent c hc
      · exact ih c hc

theorem Blank.isSpace_of_mem_lineBreak {style : Style} (hstyle : style.Blank) (depth : Nat) :
    ∀ c ∈ (style.lineBreak depth).toList, Text.isSpace c = true := by
  intro c hc
  simp only [lineBreak, String.toList_append, List.mem_append] at hc
  rcases hc with (hc | hc) | hc
  · rw [show c = '\n' by simpa using hc]
    rfl
  · exact List.all_eq_true.mp hstyle.margin c hc
  · exact isSpace_of_mem_indentation hstyle.indent depth c hc

end Style

namespace Node

/-! ### The signs of a tree -/

def leadBreak (style : Style) (depth : Nat) (tag : String) : List Char :=
  if Tag.isInline tag then [] else (style.lineBreak depth).toList

/-- The newline that saves a first newline from being dropped. -/
def savingNewline (tag : String) (children : List Node) : List Char :=
  if losesNewline tag children then ['\n'] else []

def endBreak (style : Style) (depth : Nat) (tag : String) (children : List Node) : List Char :=
  if closingBreak tag children then (style.lineBreak depth).toList else []

theorem isSpace_of_mem_leadBreak {style : Style} (hstyle : style.Blank) (depth : Nat) (tag : String) :
    ∀ c ∈ leadBreak style depth tag, Text.isSpace c = true := by
  unfold leadBreak
  split
  · simp
  · exact hstyle.isSpace_of_mem_lineBreak depth

theorem isSpace_of_mem_savingNewline (tag : String) (children : List Node) :
    ∀ c ∈ savingNewline tag children, Text.isSpace c = true := by
  unfold savingNewline
  split
  · exact List.forall_mem_singleton.mpr rfl
  · simp

theorem isSpace_of_mem_endBreak {style : Style} (hstyle : style.Blank) (depth : Nat) (tag : String)
    (children : List Node) :
    ∀ c ∈ endBreak style depth tag children, Text.isSpace c = true := by
  unfold endBreak
  split
  · exact hstyle.isSpace_of_mem_lineBreak depth
  · simp

def textChars : Node → List Char
  | text data => data.toList
  | _ => []

mutual

/-- The signs of a node at a depth. -/
def signs (style : Style) (depth : Nat) : Node → List Sign
  | text data => data.toList.map .char
  | comment data => [.comment data]
  | element tag attrs children =>
      (leadBreak style depth tag).map .char ++
        if Tag.isVoid tag then [.empty tag attrs]
        else if Tag.isRawText tag then
          [.raw tag attrs (children.flatMap textChars ++ endBreak style depth tag children)]
        else
          .opening tag attrs :: ((savingNewline tag children).map .char ++
            (signsAll style (depth + 1) children ++
            ((endBreak style depth tag children).map .char ++ [.closing tag])))
  | _ => []

def signsAll (style : Style) (depth : Nat) : List Node → List Sign
  | [] => []
  | node :: rest => signs style depth node ++ signsAll style depth rest

end

mutual

/-- Trees of elements, texts and comments that can be written to their end: void elements are empty,
raw text holds texts only, and there is no `plaintext` in them. -/
def Regular : Node → Prop
  | text _ => True
  | comment _ => True
  | element tag _ children =>
      tag ≠ Tag.plaintext ∧ (Tag.isVoid tag = true → children = []) ∧
        if Tag.isRawText tag then ∀ child ∈ children, child.isText = true else RegularAll children
  | _ => False

def RegularAll : List Node → Prop
  | [] => True
  | node :: rest => Regular node ∧ RegularAll rest

end

end Node

namespace Outline

/-- An outline after which the walk goes on, with all that it writes in a style. -/
def Writes (style : Style) (outline : Outline) (text : List Char) : Prop :=
  outline.ending = .ok .proceed ∧
    outline.pieces.flatMap (fun piece => (piece.text style).toList) = text

theorem Writes.of_literal (style : Style) (text : String) :
    (of [.literal text]).Writes style text.toList :=
  ⟨rfl, by simp [of, Piece.text]⟩

theorem Writes.andThen {style : Style} {first next : Outline} {start rest : List Char}
    (hfirst : first.Writes style start)
    (hnext : next.Writes style rest) : (first.andThen next).Writes style (start ++ rest) := by
  obtain ⟨hproceed, rfl⟩ := hfirst
  obtain ⟨hending, rfl⟩ := hnext
  simp [Writes, Outline.andThen, hproceed, hending]

end Outline

namespace Node

theorem writes_opening (style : Style) (depth : Nat) (tag : String) (attrs : List Attribute)
    (rest : List Piece) :
    (Outline.of (openingPieces depth tag attrs ++ rest)).Writes style
      (leadBreak style depth tag ++ ((startTag tag attrs).toList ++
        rest.flatMap fun piece => (piece.text style).toList)) := by
  refine ⟨rfl, ?_⟩
  cases hinline : Tag.isInline tag <;> simp [Outline.of, openingPieces, leadBreak, hinline, Piece.text]

theorem text_bracketPieces (style : Style) (tag : String) (children : List Node) :
    (bracketPieces tag children).flatMap (fun piece => (piece.text style).toList) =
      '>' :: savingNewline tag children := by
  cases hloses : losesNewline tag children <;>
    simp [bracketPieces, savingNewline, hloses, Piece.text]

theorem writes_closing (style : Style) (depth : Nat) {tag : String} (htag : tag ≠ Tag.plaintext)
    (children : List Node) :
    (closingOutline depth tag children).Writes style
    (endBreak style depth tag children ++ (endTag tag).toList) := by
  cases hbreak : closingBreak tag children <;>
    simp [closingOutline, htag, Outline.Writes, Outline.of, endBreak, hbreak, Piece.text]

theorem writes_raw (style : Style) (depth : Nat) {children : List Node}
    (htexts : ∀ child ∈ children, child.isText = true) :
    (outlineAll depth true children).Writes style (children.flatMap textChars) := by
  induction children with
  | nil => exact ⟨rfl, rfl⟩
  | cons child rest ih =>
      obtain ⟨hchild, hrest⟩ := List.forall_mem_cons.mp htexts
      cases child with
      | text data => exact (Outline.Writes.of_literal style data).andThen (ih hrest)
      | _ => simp [isText] at hchild

theorem savingNewline_of_isRawText {tag : String} (hraw : Tag.isRawText tag = true)
    (children : List Node) :
    savingNewline tag children = [] := by
  have hdrops : Tag.dropsNewline tag = false := by
    have hall : ∀ name ∈ Tag.rawText, Tag.dropsNewline name = false := by decide
    exact hall tag (by simpa [Tag.isRawText] using hraw)
  simp [savingNewline, losesNewline, hdrops]

mutual

theorem writes_signs {style : Style} (hstyle : style.Blank) (depth : Nat) {node : Node}
    (hnode : node.Regular) :
    (node.outline depth).Writes style (Sign.spellAll (node.signs style depth)) := by
  cases node with
  | text data =>
      rw [signs, Sign.spellAll_chars, ← Text.toList_escape]
      exact .of_literal style _
  | comment data =>
      simpa [signs, outline, Sign.spell] using Outline.Writes.of_literal style (commentMarkup data)
  | element tag attrs children =>
      obtain ⟨htag, hempty, hcontent⟩ := hnode
      have hlead := Sign.spellAll_blank (isSpace_of_mem_leadBreak hstyle depth tag)
      have hsaving := Sign.spellAll_blank (isSpace_of_mem_savingNewline tag children)
      have hend := Sign.spellAll_blank (isSpace_of_mem_endBreak hstyle depth tag children)
      have hbracket := text_bracketPieces style tag children
      have hopening := writes_opening style depth tag attrs (bracketPieces tag children)
      have hclosing := writes_closing style depth htag children
      rw [outline, signs, Sign.spellAll_append, hlead]
      cases hvoid : Tag.isVoid tag with
      | true =>
          have hbare := writes_opening style depth tag attrs [.literal "/>"]
          simpa [hempty hvoid, leading?, Sign.spell, Piece.text] using hbare
      | false =>
          cases hraw : Tag.isRawText tag with
          | true =>
              rw [hraw, if_pos rfl] at hcontent
              have hall := hopening.andThen ((writes_raw style (depth + 1) hcontent).andThen hclosing)
              simpa [Sign.spell, hbracket, savingNewline_of_isRawText hraw] using hall
          | false =>
              rw [hraw, if_neg Bool.false_ne_true] at hcontent
              have hall :=
                  hopening.andThen ((writes_signsAll hstyle (depth + 1) hcontent).andThen hclosing)
              simpa [Sign.spell, hbracket, hsaving, hend] using hall
  | _ => exact hnode.elim

theorem writes_signsAll {style : Style} (hstyle : style.Blank) (depth : Nat) {nodes : List Node}
    (hnodes : RegularAll nodes) :
    (outlineAll depth false nodes).Writes style (Sign.spellAll (signsAll style depth nodes)) := by
  match nodes with
  | [] => exact ⟨rfl, rfl⟩
  | node :: rest =>
      obtain ⟨hnode, hrest⟩ := hnodes
      have hraw : rawText? false node = none := by
        cases node <;> rfl
      rw [outlineAll, hraw, signsAll, Sign.spellAll_append]
      exact (writes_signs hstyle depth hnode).andThen (writes_signsAll hstyle depth hrest)

end

/-- A regular tree is written as the spelling of its signs. -/
theorem toText_eq_signs {style : Style} (hstyle : style.Blank) {node : Node} (hnode : node.Regular)
    {calls : Nat} (hnesting : node.nesting ≤ calls) :
    (node.toText calls style).1 = .ok (String.ofList (Sign.spellAll (node.signs style 0))) := by
  obtain ⟨hproceed, hpieces⟩ := writes_signs hstyle 0 hnode
  rw [toText_eq_outline style hnesting, Outline.result, hproceed, ← hpieces]
  simp [Except.mapError, Except.map, ← String.toList_inj, List.flatMap_map]

end Node

end HtmlLayout
