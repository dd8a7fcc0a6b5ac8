import HtmlLayout.Proofs.Faults
import HtmlLayout.Proofs.LineBreaks
import HtmlLayout.Proofs.Lines
import Mathlib.Data.List.Forall2

/-!
# Where lines start

A tree that holds no newline is written on as many lines as its layout asks for, and each of them
starts where the depth says. A tour of the tree lists where its elements start and end, in document
order and each with the number of elements around it; documents do not count. An element that is not
inline starts a line, and so does an end tag that has a line of its own. Apart from the first line,
which belongs to what comes before the first of these, the lines of the written text are just those:
the margin, the indent once for each element around, and then the tag.
-/

namespace HtmlLayout

/-! ### The tour of a tree -/

/-- Where an element starts, or where its end tag stands, with the number of elements around it. -/
inductive Edge where
  | opening (around : Nat) (tag : String)
  | closing (around : Nat) (tag : String) (children : List Node)

/-- The start of a line: the depth, and the markup that the line starts with. -/
structure LineStart where
  depth : Nat
  markup : String
  deriving DecidableEq, Repr

namespace LineStart

/-- What a line starts with in a style. -/
def text (style : Style) (start : LineStart) : String :=
  style.margin ++ String.join (List.replicate start.depth style.indent) ++ start.markup

/-- Whether a line begins with a line start. -/
def Begins (style : Style) (start : LineStart) (line : String) : Prop :=
  ∃ more, line = start.text style ++ more

end LineStart

namespace Edge

def tag : Edge → String
  | opening _ tag => tag
  | closing _ tag _ => tag

/-- The line that starts with an edge. -/
def lineStart? : Edge → Option LineStart
  | opening around tag =>
      if Tag.isInline tag then none else some { depth := around, markup := "<" ++ tag }
  | closing around tag children =>
      if Node.closingBreak tag children then
        some { depth := around, markup := "</" ++ tag ++ ">" }
      else none

end Edge

namespace Node

mutual

/-- The edges of the elements that are visited, in document order. A void element has no end tag, and
after the content of a `plaintext` element there is none at all. -/
def tour (around : Nat) : Node → Visit Edge
  | document children => tourAll around children
  | element tag _ children =>
      if Tag.isVoid tag then { met := [.opening around tag], flow := .proceed }
      else
        Visit.andThen { met := [.opening around tag], flow := .proceed }
          ((tourAll (around + 1) children).andThen
            (if tag == Tag.plaintext then { met := [], flow := .stop }
            else { met := [.closing around tag children], flow := .proceed }))
  | _ => { met := [], flow := .proceed }

def tourAll (around : Nat) : List Node → Visit Edge
  | [] => { met := [], flow := .proceed }
  | node :: rest => (tour around node).andThen (tourAll around rest)

end

/-- The starts of lines in document order. -/
def lineStarts (node : Node) : List LineStart := (node.tour 0).met.filterMap Edge.lineStart?

end Node

/-! ### Line breaks and line starts -/

namespace Piece

/-- The line breaks among some pieces are those of some line starts: they have the same depths, and
each stands before a piece that starts with the markup. -/
inductive Leads : List LineStart → List Piece → Prop where
  | nil : Leads [] []
  | literal (text : String) {starts : List LineStart} {rest : List Piece} (hrest : Leads starts rest) :
      Leads starts (.literal text :: rest)
  | lineBreak (start : LineStart) {text : String} (htext : ∃ more, text = start.markup ++ more)
      {starts : List LineStart} {rest : List Piece} (hrest : Leads starts (.literal text :: rest)) :
      Leads (start :: starts) (.lineBreak start.depth :: .literal text :: rest)

theorem Leads.append {starts others : List LineStart} {first rest : List Piece}
    (hfirst : Leads starts first) (hrest : Leads others rest) :
    Leads (starts ++ others) (first ++ rest) := by
  induction hfirst with
  | nil => exact hrest
  | literal text _ ih => exact .literal text ih
  | lineBreak start htext _ ih => exact .lineBreak start htext ih

theorem leads_literals (texts : List String) : Leads [] (texts.map .literal) := by
  induction texts with
  | nil => exact .nil
  | cons text rest ih => exact .literal text ih

theorem Leads.append_literals {starts : List LineStart} {first : List Piece}
    (hfirst : Leads starts first) {rest : List Piece} (hrest : Leads [] rest) :
    Leads starts (first ++ rest) := by
  have happend := hfirst.append hrest
  rwa [List.append_nil] at happend

end Piece

open Piece (Leads)

/-- An outline that does not fail ends like a tour and has the line breaks of the lines that start on
the tour. -/
def Outline.Follows (outline : Outline) (tour : Visit Edge) : Prop :=
  ∀ flow, outline.ending = .ok flow →
    tour.flow = flow ∧ Leads (tour.met.filterMap Edge.lineStart?) outline.pieces

namespace Outline

theorem Follows.andThen {first next : Outline} {tour others : Visit Edge} (hfirst : first.Follows tour)
    (hnext : next.Follows others) : (first.andThen next).Follows (tour.andThen others) := by
  intro flow hflow
  rcases first with ⟨pieces, error | _ | _⟩
  · cases hflow
  · obtain ⟨htour, hleads⟩ := hfirst .proceed rfl
    obtain ⟨hothers, hmore⟩ := hnext flow hflow
    rw [Visit.andThen, htour]
    refine ⟨hothers, ?_⟩
    rw [List.filterMap_append]
    exact hleads.append hmore
  · obtain ⟨htour, hleads⟩ := hfirst .stop rfl
    cases hflow
    rw [Visit.andThen, htour]
    exact ⟨htour, hleads⟩

theorem follows_of {pieces : List Piece} {edges : List Edge}
    (hleads : Leads (edges.filterMap Edge.lineStart?) pieces) :
    (of pieces).Follows { met := edges, flow := .proceed } := by
  rintro _ ⟨⟩
  exact ⟨rfl, hleads⟩

theorem follows_of_literal (text : String) :
    (of [.literal text]).Follows { met := [], flow := .proceed } :=
  follows_of (Piece.leads_literals [text])

theorem follows_fault (error : RenderError) (tour : Visit Edge) : (fault error).Follows tour := by
  rintro _ ⟨⟩

end Outline

namespace Node

theorem leads_opening (depth : Nat) (tag : String) (attrs : List Attribute) :
    Leads ([Edge.opening depth tag].filterMap Edge.lineStart?) (openingPieces depth tag attrs) := by
  cases hinline : Tag.isInline tag with
  | true =>
      simp only [openingPieces, Edge.lineStart?, List.filterMap_cons, hinline, if_true]
      exact Piece.leads_literals [startTag tag attrs]
  | false =>
      simp only [openingPieces, Edge.lineStart?, List.filterMap_cons, hinline, Bool.false_eq_true,
        if_false]
      exact .lineBreak { depth, markup := "<" ++ tag } ⟨_, rfl⟩
        (Piece.leads_literals [startTag tag attrs])

theorem leads_bracket (tag : String) (children : List Node) : Leads [] (bracketPieces tag children) := by
  unfold bracketPieces
  split
  · exact Piece.leads_literals [">", "\n"]
  · exact Piece.leads_literals [">"]

theorem follows_closing (depth : Nat) (tag : String) (children : List Node) :
    (closingOutline depth tag children).Follows
      (if tag == Tag.plaintext then { met := [], flow := .stop }
      else { met := [.closing depth tag children], flow := .proceed }) := by
  unfold closingOutline
  split
  · rintro _ ⟨⟩
    exact ⟨rfl, .nil⟩
  · refine Outline.follows_of ?_
    cases hbreak : closingBreak tag children with
    | true =>
        simp only [Edge.lineStart?, List.filterMap_cons, hbreak, if_true]
        exact .lineBreak { depth, markup := "</" ++ tag ++ ">" } ⟨"", String.append_empty.symm⟩
          (Piece.leads_literals [endTag tag])
    | false =>
        simp only [Edge.lineStart?, List.filterMap_cons, hbreak, Bool.false_eq_true, if_false]
        exact Piece.leads_literals [endTag tag]

mutual

/-- The outline of a tree follows its tour, at every depth. -/
theorem follows_outline (depth : Nat) (node : Node) : (node.outline depth).Follows (node.tour depth) := by
  cases node with
  | document children =>
      rw [outline, tour]
      exact follows_outlineAll depth false children
  | element tag attrs children =>
      have hopening := leads_opening depth tag attrs
      rw [outline, tour]
      split
      · split
        · exact Outline.follows_fault _ _
        · refine Outline.follows_of ?_
          exact hopening.append_literals (Piece.leads_literals ["/>"])
      · refine .andThen (Outline.follows_of ?_) (.andThen ?_ (follows_closing depth tag children))
        · exact hopening.append_literals (leads_bracket tag children)
        · exact follows_outlineAll (depth + 1) (Tag.isRawText tag) children
  | text data => exact Outline.follows_of_literal _
  | comment data => exact Outline.follows_of_literal _
  | doctype declaration => exact Outline.follows_of_literal _
  | malformed message => exact Outline.follows_fault _ _
  | unspecified => exact Outline.follows_fault _ _
  | stray value => exact Outline.follows_fault _ _

theorem follows_outlineAll (depth : Nat) (raw : Bool) (nodes : List Node) :
    (outlineAll depth raw nodes).Follows (tourAll depth nodes) := by
  match nodes with
  | [] => exact Outline.follows_of .nil
  | node :: rest =>
      have hnode := follows_outline depth node
      rw [outlineAll, tourAll]
      refine .andThen ?_ (follows_outlineAll depth raw rest)
      cases node with
      | text data => cases raw <;> exact Outline.follows_of_literal _
      | _ => exact hnode

end

end Node

/-! ### Trees without a newline -/

namespace Style

theorem indentation_eq_join (style : Style) (depth : Nat) :
    style.indentation depth = String.join (List.replicate depth style.indent) := by
  induction depth with
  | zero => rfl
  | succ depth ih => rw [indentation, ih, List.replicate_succ, String.join_cons]

theorem isLine_indentation {style : Style} (hindent : Text.IsLine style.indent) (depth : Nat) :
    Text.IsLine (style.indentation depth) := by
  rw [indentation_eq_join]
  refine Text.isLine_join fun text hmem => ?_
  rwa [List.eq_of_mem_replicate hmem]

end Style

theorem Attribute.isLine_markup {attr : Attribute} (hkey : Text.IsLine attr.key)
    (hvalue : Text.IsLine attr.value) (hqualifier : Text.IsLine attr.qualifier) :
    Text.IsLine attr.markup := by
  have hname : Text.IsLine attr.name := by
    unfold Attribute.name
    split
    · exact hkey
    · exact (hqualifier.append (by decide)).append hkey
  have hequals : Text.IsLine (" " ++ attr.name ++ "=\"") :=
    (Text.IsLine.append (by decide) hname).append (by decide)
  exact (hequals.append (Text.isLine_escape hvalue)).append (by decide)

namespace Doctype

theorem isLine_quoted {identifier : String} (hidentifier : Text.IsLine identifier) :
    Text.IsLine (quoted identifier) := by
  unfold quoted
  split
  · exact (Text.IsLine.append (by decide) hidentifier).append (by decide)
  · exact (Text.IsLine.append (by decide) hidentifier).append (by decide)

theorem isLine_identifiers {declaration : Doctype}
    (hpublic : ∀ text ∈ declaration.publicId, Text.IsLine text)
    (hsystem : ∀ text ∈ declaration.systemId, Text.IsLine text) :
    Text.IsLine declaration.identifiers := by
  have hgiven : ∀ {identifier : Option String} {text : String},
      (∀ text ∈ identifier, Text.IsLine text) → given? identifier = some text →
      Text.IsLine (quoted text) := by
    intro identifier text hidentifier hgiven
    exact isLine_quoted (hidentifier text (Option.mem_filter_iff.mp hgiven).1)
  unfold identifiers
  split
  · next publicId systemId hpublicId hsystemId =>
      have hfirst : Text.IsLine (" PUBLIC " ++ quoted publicId) :=
        .append (by decide) (hgiven hpublic hpublicId)
      exact (hfirst.append (by decide)).append (hgiven hsystem hsystemId)
  · next publicId hpublicId _ => exact .append (by decide) (hgiven hpublic hpublicId)
  · next systemId _ hsystemId => exact .append (by decide) (hgiven hsystem hsystemId)
  · decide

theorem isLine_markup {declaration : Doctype} (hname : Text.IsLine declaration.name)
    (hidentifiers : Text.IsLine declaration.identifiers) : Text.IsLine declaration.markup :=
  ((Text.IsLine.append (by decide) hname).append hidentifiers).append (by decide)

end Doctype

namespace Node

/-- The texts that a node holds, those of its children apart. -/
def texts : Node → List String
  | element tag attrs _ => tag :: attrs.flatMap fun attr => [attr.key, attr.value, attr.qualifier]
  | text data => [data]
  | comment data => [data]
  | doctype declaration =>
      declaration.name :: declaration.publicId.toList ++ declaration.systemId.toList
  | _ => []

theorem isLine_startTag {tag : String} {attrs : List Attribute} {children : List Node}
    (htexts : ∀ text ∈ (element tag attrs children).texts, Text.IsLine text) :
    Text.IsLine (startTag tag attrs) := by
  obtain ⟨htag, hattrs⟩ := List.forall_mem_cons.mp htexts
  refine (Text.IsLine.append (by decide) htag).append (Text.isLine_join ?_)
  intro text hmem
  obtain ⟨attr, hattr, rfl⟩ := List.mem_map.mp hmem
  have hfields : ∀ text ∈ [attr.key, attr.value, attr.qualifier], Text.IsLine text := by
    intro text hmem
    exact hattrs text (List.mem_flatMap.mpr ⟨attr, hattr, hmem⟩)
  exact Attribute.isLine_markup (hfields _ (by simp)) (hfields _ (by simp)) (hfields _ (by simp))

theorem isLine_doctype {declaration : Doctype}
    (htexts : ∀ text ∈ (doctype declaration).texts, Text.IsLine text) :
    Text.IsLine declaration.markup := by
  rw [texts, List.cons_append, List.forall_mem_cons, List.forall_mem_append] at htexts
  obtain ⟨hname, hpublic, hsystem⟩ := htexts
  refine Doctype.isLine_markup hname (Doctype.isLine_identifiers ?_ ?_)
  · exact fun text hmem => hpublic text (Option.mem_toList.mpr hmem)
  · exact fun text hmem => hsystem text (Option.mem_toList.mpr hmem)

/-- No text of a node or below it holds a newline. -/
def IsSingleLine (node : Node) : Prop :=
  ∀ below ∈ node.within, ∀ text ∈ below.texts, Text.IsLine text

instance (node : Node) : Decidable node.IsSingleLine :=
  inferInstanceAs (Decidable (∀ below ∈ node.within, ∀ text ∈ below.texts, Text.IsLine text))

theorem mem_within_self (node : Node) : node ∈ node.within := by
  cases node <;> simp [within]

theorem IsSingleLine.isLine_texts {node : Node} (hsingle : node.IsSingleLine) :
    ∀ text ∈ node.texts, Text.IsLine text :=
  hsingle node node.mem_within_self

theorem within_subset_withinAll {node : Node} {nodes : List Node} (hmem : node ∈ nodes) :
    node.within ⊆ withinAll nodes := by
  induction nodes with
  | nil => cases hmem
  | cons first rest ih =>
      rw [withinAll]
      rcases List.mem_cons.mp hmem with rfl | hmem
      · exact List.subset_append_left _ _
      · exact List.subset_append_of_subset_right _ (ih hmem)

theorem within_subset_of_mem_children {child node : Node} (hmem : child ∈ node.children) :
    child.within ⊆ node.within := by
  have hall := within_subset_withinAll hmem
  cases node with
  | document children => exact List.subset_cons_of_subset _ hall
  | element tag attrs children => exact List.subset_cons_of_subset _ hall
  | _ => cases hmem

theorem IsSingleLine.children {node : Node} (hsingle : node.IsSingleLine) :
    ∀ child ∈ node.children, child.IsSingleLine := by
  intro child hmem below hbelow
  exact hsingle below (within_subset_of_mem_children hmem hbelow)

end Node

/-- No write of an outline holds a newline, the line breaks apart. -/
def Outline.HasLines (outline : Outline) : Prop :=
  ∀ text ∈ Piece.literals outline.pieces, Text.IsLine text

namespace Outline

theorem HasLines.append {first rest : List Piece} (hfirst : (of first).HasLines)
    (hrest : (of rest).HasLines) : (of (first ++ rest)).HasLines := by
  intro text hmem
  simp only [of, Piece.literals_append, List.mem_append] at hmem
  exact hmem.elim (hfirst text) (hrest text)

theorem HasLines.andThen {first next : Outline} (hfirst : first.HasLines) (hnext : next.HasLines) :
    (first.andThen next).HasLines := by
  unfold Outline.andThen
  split
  · exact HasLines.append hfirst hnext
  · exact hfirst

theorem hasLines_of_literal {text : String} (htext : Text.IsLine text) :
    (of [.literal text]).HasLines := by
  intro other hmem
  rwa [List.mem_singleton.mp hmem]

end Outline

namespace Node

theorem losesNewline_eq_false (tag : String) {children : List Node}
    (hchildren : ∀ child ∈ children, child.IsSingleLine) : losesNewline tag children = false := by
  rw [losesNewline, Bool.and_eq_false_iff]
  right
  cases children with
  | nil => rfl
  | cons child rest =>
      have hchild := hchildren child List.mem_cons_self
      cases child with
      | text data => exact (hchild.isLine_texts data List.mem_cons_self).startsWith_newline
      | stray value => cases value <;> rfl
      | _ => rfl

theorem hasLines_opening (depth : Nat) {tag : String} {attrs : List Attribute}
    (hstart : Text.IsLine (startTag tag attrs)) :
    (Outline.of (openingPieces depth tag attrs)).HasLines := by
  unfold openingPieces
  split
  · exact Outline.hasLines_of_literal hstart
  · exact Outline.hasLines_of_literal hstart

theorem hasLines_closing (depth : Nat) {tag : String} (htag : Text.IsLine tag) (children : List Node) :
    (closingOutline depth tag children).HasLines := by
  have hend : Text.IsLine (endTag tag) := (Text.IsLine.append (by decide) htag).append (by decide)
  unfold closingOutline
  split
  · rintro _ ⟨⟩
  · split
    · exact Outline.hasLines_of_literal hend
    · exact Outline.hasLines_of_literal hend

mutual

/-- A tree without a newline is written in lines, at every depth. -/
theorem hasLines_outline (depth : Nat) {node : Node} (hsingle : node.IsSingleLine) :
    (node.outline depth).HasLines := by
  have htexts := hsingle.isLine_texts
  cases node with
  | document children =>
      rw [outline]
      exact hasLines_outlineAll depth false hsingle.children
  | element tag attrs children =>
      have hchildren : ∀ child ∈ children, child.IsSingleLine := hsingle.children
      have hopening := hasLines_opening depth (isLine_startTag htexts)
      rw [outline]
      split
      · split
        · rintro _ ⟨⟩
        · exact hopening.append (Outline.hasLines_of_literal (by decide))
      · refine .andThen (hopening.append ?_) (.andThen ?_ ?_)
        · rw [bracketPieces, losesNewline_eq_false tag hchildren]
          exact Outline.hasLines_of_literal (by decide)
        · exact hasLines_outlineAll (depth + 1) (Tag.isRawText tag) hchildren
        · exact hasLines_closing depth (htexts tag List.mem_cons_self) children
  | text data =>
      exact Outline.hasLines_of_literal (Text.isLine_escape (htexts data List.mem_cons_self))
  | comment data =>
      have hopened : Text.IsLine ("<!--" ++ data) := .append (by decide) (htexts data List.mem_cons_self)
      exact Outline.hasLines_of_literal (hopened.append (by decide))
  | doctype declaration => exact Outline.hasLines_of_literal (isLine_doctype htexts)
  | malformed message => rintro _ ⟨⟩
  | unspecified => rintro _ ⟨⟩
  | stray value => rintro _ ⟨⟩

theorem hasLines_outlineAll (depth : Nat) (raw : Bool) {nodes : List Node}
    (hsingle : ∀ node ∈ nodes, node.IsSingleLine) : (outlineAll depth raw nodes).HasLines := by
  match nodes with
  | [] => rintro _ ⟨⟩
  | node :: rest =>
      obtain ⟨hnode, hrest⟩ := List.forall_mem_cons.mp hsingle
      have houtline := hasLines_outline depth hnode
      rw [outlineAll]
      refine .andThen ?_ (hasLines_outlineAll depth raw hrest)
      cases node with
      | text data =>
          cases raw with
          | true => exact Outline.hasLines_of_literal (hnode.isLine_texts data List.mem_cons_self)
          | false => exact houtline
      | _ => exact houtline

end

end Node

/-! ### The lines of a tree as text -/

theorem LineStart.text_eq (style : Style) (start : LineStart) :
    start.text style = style.margin ++ style.indentation start.depth ++ start.markup := by
  rw [text, Style.indentation_eq_join]

namespace Piece

/-- After the first line, the lines of some pieces start with their line starts. -/
theorem Leads.lines {style : Style} (hmargin : Text.IsLine style.margin)
    (hindent : Text.IsLine style.indent) {starts : List LineStart} {pieces : List Piece}
    (hleads : Leads starts pieces) (hliterals : ∀ text ∈ literals pieces, Text.IsLine text) :
    List.Forall₂ (LineStart.Begins style) starts
      (Text.lines (String.join (pieces.map (Piece.text style)))).tail := by
  induction hleads with
  | nil => exact .nil
  | literal text _ ih =>
      obtain ⟨htext, hrest⟩ := List.forall_mem_cons.mp hliterals
      rw [List.map_cons, String.join_cons, Piece.text, Text.lines_append htext, List.tail_modifyHead]
      exact ih hrest
  | @lineBreak start text hmore starts rest _ ih =>
      have hlater := ih hliterals
      obtain ⟨htext, -⟩ := List.forall_mem_cons.mp hliterals
      have hindentation := Style.isLine_indentation hindent start.depth
      rw [List.map_cons, String.join_cons, Piece.text, Text.lines_append htext] at hlater
      rw [List.map_cons, String.join_cons, Piece.text, Style.lineBreak, String.append_assoc,
        String.append_assoc, Text.lines_newline_append, List.tail_cons, Text.lines_append hmargin,
        Text.lines_append hindentation, List.map_cons, String.join_cons, Piece.text,
        Text.lines_append htext]
      -- The line that the break opens goes on with the literal behind it.
      obtain ⟨line, others, hlines⟩ := List.exists_cons_of_ne_nil
        (Text.lines_ne_nil (String.join (rest.map (Piece.text style))))
      rw [hlines] at hlater ⊢
      obtain ⟨more, rfl⟩ := hmore
      refine .cons ⟨more ++ line, ?_⟩ hlater
      simp only [LineStart.text_eq, String.append_assoc]

/-- Pieces that start no line are the same in every style. -/
theorem Leads.map_text {pieces : List Piece} (hleads : Leads [] pieces) (style : Style) :
    pieces.map (Piece.text style) = literals pieces := by
  induction pieces with
  | nil => rfl
  | cons piece rest ih =>
      cases hleads with
      | literal text hrest => rw [List.map_cons, ih hrest, literals, Piece.text]

end Piece

namespace Node

mutual

/-- Only elements of the tree are met on its tour. -/
theorem exists_element_of_mem_tour (around : Nat) {node : Node} {edge : Edge}
    (hmem : edge ∈ (node.tour around).met) :
    ∃ attrs children, element edge.tag attrs children ∈ node.within := by
  cases node with
  | document children =>
      rw [tour] at hmem
      obtain ⟨attrs, content, hwithin⟩ := exists_element_of_mem_tourAll around hmem
      exact ⟨attrs, content, List.mem_cons_of_mem _ hwithin⟩
  | element tag attrs children =>
      have hself : ∃ others content, element tag others content ∈ (element tag attrs children).within :=
        ⟨attrs, children, mem_within_self _⟩
      rw [tour] at hmem
      split at hmem
      · rw [List.mem_singleton.mp hmem]
        exact hself
      · rcases Visit.mem_of_mem_andThen hmem with hopening | hmem
        · rw [List.mem_singleton.mp hopening]
          exact hself
        · rcases Visit.mem_of_mem_andThen hmem with hbelow | hclosing
          · obtain ⟨attrs, content, hwithin⟩ := exists_element_of_mem_tourAll (around + 1) hbelow
            exact ⟨attrs, content, List.mem_cons_of_mem _ hwithin⟩
          · split at hclosing
            · cases hclosing
            · rw [List.mem_singleton.mp hclosing]
              exact hself
  | _ => cases hmem

theorem exists_element_of_mem_tourAll (around : Nat) {nodes : List Node} {edge : Edge}
    (hmem : edge ∈ (tourAll around nodes).met) :
    ∃ attrs children, element edge.tag attrs children ∈ withinAll nodes := by
  match nodes with
  | [] => cases hmem
  | node :: rest =>
      rw [tourAll] at hmem
      rw [withinAll]
      rcases Visit.mem_of_mem_andThen hmem with hfirst | hrest
      · obtain ⟨attrs, content, hwithin⟩ := exists_element_of_mem_tour around hfirst
        exact ⟨attrs, content, List.mem_append_left _ hwithin⟩
      · obtain ⟨attrs, content, hwithin⟩ := exists_element_of_mem_tourAll around hrest
        exact ⟨attrs, content, List.mem_append_right _ hwithin⟩

end

theorem lineStarts_eq_nil {node : Node}
    (hinline : ∀ tag attrs children, element tag attrs children ∈ node.within → Tag.isInline tag = true) :
    node.lineStarts = [] := by
  refine List.filterMap_eq_nil_iff.mpr fun edge hmem => ?_
  obtain ⟨attrs, children, hwithin⟩ := exists_element_of_mem_tour 0 hmem
  have htag := hinline _ attrs children hwithin
  cases edge with
  | opening around tag => exact if_pos htag
  | closing around tag content =>
      have hbreak : closingBreak tag content = false := by
        rw [closingBreak, show Tag.isInline tag = true from htag]
        rfl
      rw [Edge.lineStart?, hbreak]
      rfl

/-- A tree that is written in one style does not fail in any other. -/
theorem exists_ending_of_toText_eq_ok {style : Style} {calls : Nat} {node : Node}
    (hnesting : node.nesting ≤ calls) {text : String}
    (htext : (node.toText calls style).1 = .ok text) :
    ∃ flow, (node.outline 0).ending = .ok flow ∧ ∀ other : Style, (node.toText calls other).1 =
      .ok (String.join ((node.outline 0).pieces.map (Piece.text other))) := by
  cases hending : (node.outline 0).ending with
  | error error =>
      rw [toText_eq_outline style hnesting, Outline.result, hending] at htext
      cases htext
  | ok flow =>
      refine ⟨flow, rfl, fun other => ?_⟩
      rw [toText_eq_outline other hnesting, Outline.result, hending]
      rfl

/-- Every line starts where the depth says. A tree without a newline that is written in a style
without one has one line more than there are line starts on its tour. From the second line on, each
line begins with the margin, the indent once for each element around, and the tag of its line start.
A tree of inline elements is one line, the same in every style. -/
theorem toText_lines_start_at_depth {style : Style} (hmargin : Text.IsLine style.margin)
    (hindent : Text.IsLine style.indent) {calls : Nat} {node : Node}
    (hnesting : node.nesting ≤ calls) (hsingle : node.IsSingleLine) {text : String}
    (htext : (node.toText calls style).1 = .ok text) :
    (Text.lines text).length = node.lineStarts.length + 1 ∧
      List.Forall₂ (LineStart.Begins style) node.lineStarts (Text.lines text).tail ∧
      ((∀ tag attrs children, element tag attrs children ∈ node.within → Tag.isInline tag = true) →
        Text.IsLine text ∧ ∀ other : Style, (node.toText calls other).1 = .ok text) := by
  obtain ⟨flow, hending, htexts⟩ := exists_ending_of_toText_eq_ok hnesting htext
  obtain rfl := Except.ok.inj (htext.symm.trans (htexts style))
  have hlines := hasLines_outline 0 hsingle
  have hleads : Leads node.lineStarts (node.outline 0).pieces := (follows_outline 0 node flow hending).2
  have hstarts := hleads.lines hmargin hindent hlines
  refine ⟨?_, hstarts, fun hinline => ?_⟩
  · rw [hstarts.length_eq, List.length_tail, Nat.sub_add_cancel]
    exact List.length_pos_of_ne_nil (Text.lines_ne_nil _)
  · rw [lineStarts_eq_nil hinline] at hleads
    simp only [hleads.map_text] at htexts ⊢
    exact ⟨Text.isLine_join hlines, htexts⟩

/-- A list inside a block before a stop: start tags at three depths, end tags on lines of their own at
two, an inline `br` that starts no line, and a document around all of it that adds no depth. -/
theorem toText_lines_start_at_depth_in_list :
    let style : Style := { margin := "| ", indent := "  " }
    let node := document
      [.doctype { name := "html" }, .element "div" [] [.element "ul" []
        [.element "li" [] [.text "a < b", .element "br" [] []], .element "hr" [] []]],
        .element "plaintext" [] [.text "c"], .malformed "never reached"]
    let text := "<!DOCTYPE html>\n| <div>\n|   <ul>\n|     <li>a &lt; b<br/></li>\n|     <hr/>\n" ++
      "|   </ul>\n| </div>\n| <plaintext>c"
    let inner := Node.element "b" [] [.text "a", .element "br" [] []]
    node.nesting ≤ defaultCalls ∧ node.IsSingleLine ∧ (node.toText defaultCalls style).1 = .ok text ∧
      node.lineStarts = [⟨0, "<div"⟩, ⟨1, "<ul"⟩, ⟨2, "<li"⟩, ⟨2, "<hr"⟩, ⟨1, "</ul>"⟩, ⟨0, "</div>"⟩,
        ⟨0, "<plaintext"⟩] ∧
      List.Forall₂ (LineStart.Begins style) node.lineStarts (Text.lines text).tail ∧
      Text.IsLine "<b>a<br/></b>" ∧
      ∀ other : Style, (inner.toText defaultCalls other).1 = .ok "<b>a<br/></b>" := by
  intro style node text inner
  have hnesting : node.nesting ≤ defaultCalls := by decide
  have hsingle : node.IsSingleLine := by decide
  have hwritten : String.join ((node.outline 0).pieces.map (Piece.text style)) = text := by
    decide +kernel
  have htext : (node.toText defaultCalls style).1 = .ok text := by
    rw [toText_eq_outline style hnesting, hwritten]
    rfl
  obtain ⟨-, hstarts, -⟩ := toText_lines_start_at_depth (by decide) (by decide) hnesting hsingle htext
  refine ⟨hnesting, hsingle, htext, by decide +kernel, hstarts, ?_⟩
  have hwritten : String.join ((inner.outline 0).pieces.map (Piece.text style)) = "<b>a<br/></b>" := by
    decide +kernel
  have htext : (inner.toText defaultCalls style).1 = .ok "<b>a<br/></b>" := by
    rw [toText_eq_outline style (by decide), hwritten]
    rfl
  obtain ⟨-, -, hline⟩ := toText_lines_start_at_depth (by decide) (by decide)
    (show inner.nesting ≤ defaultCalls by decide) (show inner.IsSingleLine by decide) htext
  refine hline ?_
  intro tag attrs children hmem
  simp only [inner, within, withinAll, List.append_nil, List.cons_append, List.nil_append,
    List.mem_cons, List.not_mem_nil, element.injEq, reduceCtorEq, or_false, false_or] at hmem
  obtain ⟨rfl, -⟩ | ⟨rfl, -⟩ := hmem
  · rfl
  · rfl

end Node

end HtmlLayout
