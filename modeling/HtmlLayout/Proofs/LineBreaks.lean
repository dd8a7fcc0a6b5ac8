import HtmlLayout.Proofs.Outline

/-!
# Only line breaks are added

Writing a tree with indentation is writing its plain markup with line breaks put in. The plain
markup is defined on its own, without a depth and without a style. The outline of a tree has the
plain markup as its literals, each of its line breaks stands right before a tag of an element of the
tree, and for every style the operation writes the outline with the line breaks filled in.
-/

namespace HtmlLayout

namespace Node

mutual

def within : Node → List Node
  | document children => document children :: withinAll children
  | element tag attrs children => element tag attrs children :: withinAll children
  | node => [node]

def withinAll : List Node → List Node
  | [] => []
  | node :: rest => within node ++ withinAll rest

end

/-! ### Plain markup -/

mutual

/-- The markup of a node without line breaks up to where it ends, and how it ends there. A
`plaintext` element ends it with its content, and a node without markup ends it before it starts. -/
def plain : Node → String × Except RenderError Flow
  | document children => plainAll false children
  | text data => (Text.escape data, .ok .proceed)
  | comment data => (commentMarkup data, .ok .proceed)
  | doctype declaration => (declaration.markup, .ok .proceed)
  | malformed message => ("", .error (.malformed (malformed message)))
  | unspecified => ("", .error (.unknown unspecified))
  | stray value => ("", .error (.unknown (stray value)))
  | element tag attrs children =>
      if Tag.isVoid tag then
        match leading? children with
        | some _ => ("", .error (.voidContent tag))
        | none => (startTag tag attrs ++ "/>", .ok .proceed)
      else
        let opened := startTag tag attrs ++ ">" ++ if losesNewline tag children then "\n" else ""
        match plainAll (Tag.isRawText tag) children with
        | (content, .ok .proceed) =>
            if tag == Tag.plaintext then (opened ++ content, .ok .stop)
            else (opened ++ content ++ endTag tag, .ok .proceed)
        | (content, ending) => (opened ++ content, ending)

def plainAll (raw : Bool) : List Node → String × Except RenderError Flow
  | [] => ("", .ok .proceed)
  | node :: rest =>
      match (match rawText? raw node with
        | some data => (data, Except.ok Flow.proceed)
        | none => plain node) with
      | (first, .ok .proceed) => (first ++ (plainAll raw rest).1, (plainAll raw rest).2)
      | ended => ended

end

end Node

namespace Outline

/-- The literals of an outline as one text, and how it ends. -/
def plain (outline : Outline) : String × Except RenderError Flow :=
  (String.join (Piece.literals outline.pieces), outline.ending)

theorem plain_of_literal (text : String) : (of [.literal text]).plain = (text, .ok .proceed) := by
  simp [plain, of, Piece.literals]

theorem plain_andThen (first next : Outline) :
    (first.andThen next).plain =
      match first.plain with
      | (start, .ok .proceed) => (start ++ next.plain.1, next.plain.2)
      | ended => ended := by
  rcases first with ⟨pieces, _ | _ | _⟩ <;> simp [andThen, plain]

end Outline

namespace Node

theorem plain_opening (depth : Nat) (tag : String) (attrs : List Attribute) (rest : List Piece) :
    (Outline.of (openingPieces depth tag attrs ++ rest)).plain =
      (startTag tag attrs ++ (Outline.of rest).plain.1, .ok .proceed) := by
  cases hinline : Tag.isInline tag <;>
      simp [openingPieces, hinline, Outline.plain, Outline.of, Piece.literals]

theorem plain_bracket (tag : String) (children : List Node) :
    (Outline.of (bracketPieces tag children)).plain =
      (">" ++ if losesNewline tag children then "\n" else "", .ok .proceed) := by
  cases hloses : losesNewline tag children <;>
      simp [bracketPieces, hloses, Outline.plain, Outline.of, Piece.literals]

theorem plain_closing (depth : Nat) (tag : String) (children : List Node) :
    (closingOutline depth tag children).plain =
      if tag == Tag.plaintext then ("", .ok .stop) else (endTag tag, .ok .proceed) := by
  unfold closingOutline
  split
  · rfl
  · cases closingBreak tag children <;> simp [Outline.plain, Outline.of, Piece.literals]

mutual

/-- The literals of an outline are the plain markup, at every depth. -/
theorem plain_outline (depth : Nat) (node : Node) : (node.outline depth).plain = node.plain := by
  cases node with
  | document children => rw [outline, plain, plain_outlineAll]
  | text data => rw [outline, plain, Outline.plain_of_literal]
  | comment data => rw [outline, plain, Outline.plain_of_literal]
  | doctype declaration => rw [outline, plain, Outline.plain_of_literal]
  | malformed message => rfl
  | unspecified => rfl
  | stray value => rfl
  | element tag attrs children =>
      rw [outline, plain]
      cases hvoid : Tag.isVoid tag with
      | true =>
          cases hlead : leading? children with
          | some node => rfl
          | none => simp [plain_opening, Outline.plain_of_literal]
      | false =>
          have hcontent := plain_outlineAll (depth + 1) (Tag.isRawText tag) children
          simp only [Bool.false_eq_true, if_false, Outline.plain_andThen, plain_opening,
              plain_bracket, plain_closing, hcontent]
          rcases plainAll (Tag.isRawText tag) children with ⟨content, _ | _ | _⟩
          · simp [String.append_assoc]
          · by_cases hplain : tag = Tag.plaintext <;> simp [hplain, String.append_assoc]
          · simp [String.append_assoc]

theorem plain_outlineAll (depth : Nat) (raw : Bool) (nodes : List Node) :
    (outlineAll depth raw nodes).plain = plainAll raw nodes := by
  match nodes with
  | [] => rfl
  | node :: rest =>
      rw [outlineAll, plainAll, Outline.plain_andThen, plain_outlineAll depth raw rest]
      cases rawText? raw node with
      | some data => rw [Outline.plain_of_literal]
      | none => rw [plain_outline depth node]

end

end Node

/-! ### Where line breaks stand -/

namespace Piece

/-- Whether a piece is the start tag or the end tag of an element among some nodes. -/
def IsTagOf (nodes : List Node) (piece : Piece) : Prop :=
  ∃ tag attrs children, Node.element tag attrs children ∈ nodes ∧
    (piece = .literal (Node.startTag tag attrs) ∨ piece = .literal (Node.endTag tag))

/-- Every line break stands right before a tag of an element among some nodes. -/
def BreaksLead (nodes : List Node) : List Piece → Prop
  | [] => True
  | literal _ :: rest => BreaksLead nodes rest
  | lineBreak _ :: rest => (∃ piece ∈ rest.head?, piece.IsTagOf nodes) ∧ BreaksLead nodes rest

theorem IsTagOf.mono {some all : List Node} {piece : Piece} (hsub : some ⊆ all)
    (htag : piece.IsTagOf some) :
    piece.IsTagOf all := by
  obtain ⟨tag, attrs, children, hmem, hpiece⟩ := htag
  exact ⟨tag, attrs, children, hsub hmem, hpiece⟩

theorem BreaksLead.mono {some all : List Node} (hsub : some ⊆ all) {pieces : List Piece}
    (hlead : BreaksLead some pieces) :
    BreaksLead all pieces := by
  fun_induction BreaksLead some pieces with
  | case1 => trivial
  | case2 text rest ih => exact ih hlead
  | case3 depth rest ih =>
      obtain ⟨⟨piece, hhead, htag⟩, hrest⟩ := hlead
      exact ⟨⟨piece, hhead, htag.mono hsub⟩, ih hrest⟩

theorem BreaksLead.append {nodes : List Node} {first rest : List Piece}
    (hfirst : BreaksLead nodes first)
    (hrest : BreaksLead nodes rest) : BreaksLead nodes (first ++ rest) := by
  fun_induction BreaksLead nodes first with
  | case1 => exact hrest
  | case2 text more ih => exact ih hfirst
  | case3 depth more ih =>
      obtain ⟨⟨piece, hhead, htag⟩, hmore⟩ := hfirst
      refine ⟨⟨piece, ?_, htag⟩, ih hmore⟩
      cases more with
      | nil => simp at hhead
      | cons next others => exact hhead

theorem BreaksLead.andThen {nodes : List Node} {first next : Outline}
    (hfirst : BreaksLead nodes first.pieces)
    (hnext : BreaksLead nodes next.pieces) : BreaksLead nodes (first.andThen next).pieces := by
  unfold Outline.andThen
  split
  · exact hfirst.append hnext
  · exact hfirst

end Piece

namespace Node

open Piece

theorem breaksLead_opening (depth : Nat) (tag : String) (attrs : List Attribute)
    (children : List Node) (nodes : List Node) :
    BreaksLead (element tag attrs children :: nodes) (openingPieces depth tag attrs) := by
  have htag : (literal (startTag tag attrs)).IsTagOf (element tag attrs children :: nodes) :=
    ⟨tag, attrs, children, List.mem_cons_self, .inl rfl⟩
  unfold openingPieces
  split
  · trivial
  · exact ⟨⟨_, rfl, htag⟩, trivial⟩

theorem breaksLead_bracket (nodes : List Node) (tag : String) (children : List Node) :
    BreaksLead nodes (bracketPieces tag children) := by
  cases hloses : losesNewline tag children <;> simp [bracketPieces, hloses, BreaksLead]

theorem breaksLead_closing (depth : Nat) (tag : String) (attrs : List Attribute)
    (children : List Node) (nodes : List Node) :
    BreaksLead (element tag attrs children :: nodes) (closingOutline depth tag children).pieces := by
  have htag : (literal (endTag tag)).IsTagOf (element tag attrs children :: nodes) :=
    ⟨tag, attrs, children, List.mem_cons_self, .inr rfl⟩
  unfold closingOutline
  split
  · trivial
  · split
    · exact ⟨⟨_, rfl, htag⟩, trivial⟩
    · trivial

mutual

/-- In the outline of a tree every line break stands right before a tag of an element of the tree. -/
theorem breaksLead_outline (depth : Nat) (node : Node) :
    BreaksLead node.within (node.outline depth).pieces := by
  cases node with
  | document children =>
      rw [outline, within]
      exact (breaksLead_outlineAll depth false children).mono (List.subset_cons_self _ _)
  | element tag attrs children =>
      have hopening := breaksLead_opening depth tag attrs children (withinAll children)
      rw [outline, within]
      split
      · split
        · trivial
        · exact hopening.append trivial
      · refine (hopening.append (breaksLead_bracket _ tag children)).andThen (.andThen ?_ ?_)
        · exact (breaksLead_outlineAll (depth + 1) (Tag.isRawText tag) children).mono
            (List.subset_cons_self _ _)
        · exact breaksLead_closing depth tag attrs children _
  | text data => trivial
  | comment data => trivial
  | doctype declaration => trivial
  | malformed message => trivial
  | unspecified => trivial
  | stray value => trivial

theorem breaksLead_outlineAll (depth : Nat) (raw : Bool) (nodes : List Node) :
    BreaksLead (withinAll nodes) (outlineAll depth raw nodes).pieces := by
  match nodes with
  | [] => trivial
  | node :: rest =>
      rw [outlineAll, withinAll]
      refine .andThen ?_ ((breaksLead_outlineAll depth raw rest).mono (List.subset_append_right _ _))
      cases rawText? raw node with
      | some data => trivial
      | none => exact (breaksLead_outline depth node).mono (List.subset_append_left _ _)

end

end Node

namespace Style

/-- Only line breaks are added: there is one outline of a tree for all styles. Whatever the margin
and the indent, the writes are its pieces with the line breaks filled in, and the outcome and the
records are the same. Every line break stands right before a tag, and without the line breaks the
plain markup is left. -/
theorem writeNode_adds_line_breaks_only {calls : Nat} (node : Node)
    (hnesting : node.nesting ≤ calls) :
    (∀ (style : Style) (channel : Channel), channel.room = none →
      (style.writeNode calls node).run.run channel =
        ((node.outline 0).result,
          { channel with
            writes := channel.writes ++ ((node.outline 0).pieces.map (Piece.text style)).toArray
            records := channel.records ++ (node.outline 0).notes.toArray })) ∧
      Piece.BreaksLead node.within (node.outline 0).pieces ∧
      (String.join (Piece.literals (node.outline 0).pieces), (node.outline 0).ending) = node.plain :=
  ⟨fun style _ hroom => style.writeNode_of_room_none hnesting hroom, node.breaksLead_outline 0,
    node.plain_outline 0⟩

/-- A document with every kind of markup and a stop in it: the line breaks are those of two blocks
inside a third, a newline is saved in the first of them, and what follows the stop is not reached. -/
theorem writeNode_adds_line_breaks_only_before_stop :
    let node := Node.document
      [.doctype { name := "html" },
        .element "div" [{ key := "id", value := "\"" }, { key := "href", value := "&", qualifier := "xlink" }]
          [.comment " c ", .element "br" [] [], .element "pre" [] [.text "\na & b"],
            .element "plaintext" [] [.text "<b>"], .malformed "never reached"]]
    node.nesting ≤ 5 ∧
      node.plain = ("<!DOCTYPE html><div id=\"&quot;\" xlink:href=\"&amp;\"><!-- c --><br/>" ++
        "<pre>\n\na &amp; b</pre><plaintext><b>", .ok .stop) ∧
      ∀ style : Style, (style.writeNode 5 node).run.run {} = (.ok (),
        { writes := #["<!DOCTYPE html>", style.lineBreak 0,
            "<div id=\"&quot;\" xlink:href=\"&amp;\"", ">", "<!-- c -->", "<br", "/>",
            style.lineBreak 1, "<pre", ">", "\n", "\na &amp; b", "</pre>",
            style.lineBreak 1, "<plaintext", ">", "<b>"]
          records := #[Outline.stopRecord] }) := by
  intro node
  have hnesting : node.nesting ≤ 5 := by decide
  have hpieces : (node.outline 0).pieces =
      [.literal "<!DOCTYPE html>", .lineBreak 0,
        .literal "<div id=\"&quot;\" xlink:href=\"&amp;\"", .literal ">", .literal "<!-- c -->",
        .literal "<br", .literal "/>", .lineBreak 1, .literal "<pre", .literal ">", .literal "\n",
        .literal "\na &amp; b", .literal "</pre>", .lineBreak 1, .literal "<plaintext", .literal ">",
        .literal "<b>"] := by
    decide +kernel
  have hending : (node.outline 0).ending = .ok .stop := rfl
  obtain ⟨hwrites, -, hplain⟩ := writeNode_adds_line_breaks_only node hnesting
  refine ⟨hnesting, ?_, fun style => ?_⟩
  · rw [← hplain, hpieces, hending]
    rfl
  · rw [hwrites style {} rfl, hpieces, Outline.result, Outline.notes, hending]
    simp [Piece.text, Except.map, Except.mapError]

end Style

end HtmlLayout
