import HtmlLayout.Proofs.Edits

/-!
# Rules as edits

Every rule of tree construction is a chain of edits, and so is what a token and a whole text do. An
encoding is declared by `meta` tags only, and an element of markup that cannot have contents is
closed as soon as it is inserted, whatever rule inserts it.
-/

namespace HtmlLayout.Html

namespace Assembly

variable {declares : Prop} {first a : Assembly} {tag : StartTag}

theorem isVoid_of_beq {name other : String} (hname : (name == other) = true)
    (hother : Tag.isVoid other = false) : Tag.isVoid name = false := by
  rwa [eq_of_beq hname]

theorem isVoid_of_contains {names : List String} {name : String} (hname : names.contains name = true)
    (hnames : ∀ other ∈ names, Tag.isVoid other = false) : Tag.isVoid name = false :=
  hnames name (List.contains_iff_mem.mp hname)

namespace Edits

section Rules

variable (h : Edits declares first a)

include h

/-! ### End tags -/

theorem closeParagraph : Edits declares first a.closeParagraph :=
  ite (fun _ => h.close "p" (some "p")) h

theorem endParagraph : Edits declares first a.endParagraph := by
  have hopened : Edits declares first (a.insertHtml "p") := h.insertHtml (by decide)
  exact ite (fun _ => h.close "p" (some "p")) (hopened.close "p" (some "p"))

theorem endBlock (name : String) : Edits declares first (a.endBlock name) := by
  have hkept : Edits declares first (if name == "pre" then { a with dropNewline := false } else a) :=
    ite (fun _ => h.set rfl) h
  exact ite (fun _ => hkept.close name) hkept

theorem endForm : Edits declares first a.endForm := by
  have hleft : Edits declares first { a with form := none } := h.set rfl
  unfold Assembly.endForm
  cases a.form with
  | none => exact hleft
  | some form => exact ite (fun _ => hleft.closeImplied.filter _) hleft

theorem endListItem (name : String) : Edits declares first (a.endListItem name) :=
  ite (fun _ => h.close name (some name)) h

theorem endHeading : Edits declares first a.endHeading :=
  ite (fun _ => (h.closeImplied.popTo headings).pop) h

theorem endEmbedded (name : String) : Edits declares first (a.endEmbedded name) :=
  ite (fun _ => (h.close name).clearToMarker) h

theorem endLineBreak : Edits declares first a.endLineBreak :=
  h.reconstruct.edit (.startAndEnd (.html "br") [])

theorem endBody : Edits declares first a.endBody :=
  ite (fun _ => h.set rfl) h

theorem endInBody (name : String) : Edits declares first (a.endInBody name).assembly := by
  refine reply (fun _ => h.endBody) ?_
  refine reply (fun _ => reply (fun _ => h.endBody) h) ?_
  refine reply (fun _ => h.endBlock name) ?_
  refine reply (fun _ => h.endForm) ?_
  refine reply (fun _ => h.endParagraph) ?_
  refine reply (fun _ => h.endListItem name) ?_
  refine reply (fun _ => h.endHeading) ?_
  refine reply (fun _ => h.endFormatting name) ?_
  refine reply (fun _ => h.endEmbedded name) ?_
  exact reply (fun _ => h.endLineBreak) (h.endOther name)

theorem endTable : Edits declares first a.endTable :=
  ite (fun _ => (h.close "table").set rfl) h

theorem endInTable (name : String) : Edits declares first (a.endInTable name).assembly := by
  have hfostering : Edits declares first { a with fostering := true } := h.set rfl
  refine reply (fun _ => h.endTable) ?_
  exact reply (fun _ => h) ((hfostering.endInBody name).set rfl)

theorem endCaption : Edits declares first a.endCaption :=
  ite (fun _ => (h.close "caption").clearToMarker.set rfl) h

theorem endInCaption (name : String) : Edits declares first (a.endInCaption name).assembly := by
  refine reply (fun _ => h.endCaption) ?_
  refine reply (fun _ => reply (fun _ => h.endCaption) h) ?_
  exact reply (fun _ => h) (h.endInBody name)

theorem endColumnGroup : Edits declares first a.endColumnGroup :=
  ite (fun _ => h) (h.pop.set rfl)

theorem leaveColumnGroup : Edits declares first a.leaveColumnGroup.assembly :=
  reply (fun _ => h) h.endColumnGroup

theorem endInColumnGroup (name : String) : Edits declares first (a.endInColumnGroup name).assembly := by
  refine reply (fun _ => h.endColumnGroup) ?_
  exact reply (fun _ => h) h.leaveColumnGroup

theorem endRowGroup (name : String) : Edits declares first (a.endRowGroup name) :=
  ite (fun _ => (h.popTo _).pop.set rfl) h

theorem leaveRowGroup : Edits declares first a.leaveRowGroup.assembly :=
  reply (fun _ => (h.popTo _).endRowGroup _) h

theorem endInTableBody (name : String) : Edits declares first (a.endInTableBody name).assembly := by
  refine reply (fun _ => h.endRowGroup name) ?_
  refine reply (fun _ => h.leaveRowGroup) ?_
  exact reply (fun _ => h) (h.endInTable name)

theorem endRow : Edits declares first a.endRow :=
  ite (fun _ => (h.popTo _).pop.set rfl) h

theorem leaveRow : Edits declares first a.leaveRow.assembly :=
  reply (fun _ => h.endRow) h

theorem endInRow (name : String) : Edits declares first (a.endInRow name).assembly := by
  refine reply (fun _ => h.endRow) ?_
  refine reply (fun _ => h.leaveRow) ?_
  refine reply (fun _ => reply (fun _ => h.endRow) h) ?_
  exact reply (fun _ => h) (h.endInTable name)

theorem endCell (name : String) : Edits declares first (a.endCell name) :=
  ite (fun _ => (h.close name (some name)).clearToMarker.set rfl) h

theorem closeCell : Edits declares first a.closeCell :=
  ite (fun _ => h.endCell "td") (ite (fun _ => h.endCell "th") h)

theorem endInCell (name : String) : Edits declares first (a.endInCell name).assembly := by
  refine reply (fun _ => h.endCell name) ?_
  refine reply (fun _ => h) ?_
  exact reply (fun _ => reply (fun _ => h.closeCell) h) (h.endInBody name)

theorem endSelect : Edits declares first a.endSelect :=
  ite (fun _ => (h.popThrough "select").set rfl) h

theorem endOptionGroup : Edits declares first a.endOptionGroup := by
  have hpop : ∀ {b : Assembly}, Edits declares first b →
      Edits declares first (if b.currentName == "optgroup" then b.pop else b) :=
    fun hb => ite (fun _ => hb.pop) hb
  unfold Assembly.endOptionGroup
  apply hpop
  split
  · exact ite (fun _ => h.pop) h
  · exact h

theorem endInSelect (name : String) : Edits declares first (a.endInSelect name) := by
  refine ite (fun _ => ite (fun _ => h.pop) h) ?_
  refine ite (fun _ => h.endOptionGroup) ?_
  exact ite (fun _ => h.endSelect) h

theorem endInSelectInTable (name : String) :
    Edits declares first (a.endInSelectInTable name).assembly :=
  reply (fun _ => reply (fun _ => h.endSelect) h) (h.endInSelect name)

theorem endFrameset : Edits declares first a.endFrameset := by
  have hclosed : Edits declares first (if a.currentName == "html" then a else a.pop) :=
    ite (fun _ => h) h.pop
  exact ite (fun _ => hclosed.set rfl) hclosed

theorem endTag (name : String) : Edits declares first (a.endTag name).assembly := by
  unfold Assembly.endTag
  cases a.mode with
  | initial => exact h.set rfl
  | beforeHtml => exact reply (fun _ => h.edit .root) h
  | beforeHead => exact reply (fun _ => h.insertHead) h
  | inHead => exact reply (fun _ => h.leaveHead) (reply (fun _ => h.leaveHead) h)
  | afterHead => exact reply (fun _ => h.insertBody) h
  | inBody => exact h.endInBody name
  | text => exact h.pop.set rfl
  | inTable => exact h.endInTable name
  | inTableText => exact h.leaveTableText
  | inCaption => exact h.endInCaption name
  | inColumnGroup => exact h.endInColumnGroup name
  | inTableBody => exact h.endInTableBody name
  | inRow => exact h.endInRow name
  | inCell => exact h.endInCell name
  | inSelect => exact h.endInSelect name
  | inSelectInTable => exact h.endInSelectInTable name
  | afterBody => exact reply (fun _ => reply (fun _ => h) (h.set rfl)) (h.set rfl)
  | inFrameset => exact reply (fun _ => h.endFrameset) h
  | afterFrameset => exact reply (fun _ => h.set rfl) h
  | afterAfterBody => exact h.set rfl
  | afterAfterFrameset => exact h

/-! ### Start tags -/

theorem noteCharset (hdeclares : declares) : Edits declares first (a.noteCharset tag) := by
  unfold Assembly.noteCharset
  split
  · exact h.edit (.declare hdeclares _)
  split
  · refine ite (fun _ => ?_) h
    split
    · exact h.edit (.declare hdeclares _)
    · exact h
  · exact h

theorem insertHeadElement (hmeta : tag.name = "meta" → declares) :
    Edits declares first (a.insertHeadElement tag) := by
  refine ite (fun hname => h.insertTextElement (isVoid_of_beq hname (by decide)) _) ?_
  refine ite (fun hname => h.insertTextElement (isVoid_of_contains hname (by decide)) _) ?_
  refine ite (fun hname => h.insertTextElement (isVoid_of_beq hname (by decide)) _) ?_
  exact ite (fun hname => (h.insertEmpty tag).noteCharset (hmeta (eq_of_beq hname))) (h.insertEmpty tag)

theorem startInHead (hmeta : tag.name = "meta" → declares) :
    Edits declares first (a.startInHead tag).assembly := by
  refine reply (fun _ => h.mergeRoot tag.attrs) ?_
  refine reply (fun _ => h.insertHeadElement hmeta) ?_
  exact reply (fun _ => h) h.leaveHead

theorem insertLate (hmeta : tag.name = "meta" → declares) :
    Edits declares first (a.insertLate tag) := by
  unfold Assembly.insertLate
  split
  · exact h
  · next head hhead => exact ((h.edit (.reopenHead hhead)).insertHeadElement hmeta).filter _

theorem startAfterHead (hmeta : tag.name = "meta" → declares) :
    Edits declares first (a.startAfterHead tag).assembly := by
  refine reply (fun _ => h.mergeRoot tag.attrs) ?_
  refine reply (fun hname => (h.insertTag (isVoid_of_beq hname (by decide))).set rfl) ?_
  refine reply (fun hname => (h.insertTag (isVoid_of_beq hname (by decide))).set rfl) ?_
  refine reply (fun _ => h.insertLate hmeta) ?_
  exact reply (fun _ => h) h.insertBody

theorem mergeBody (attrs : List (String × String)) : Edits declares first (a.mergeBody attrs) := by
  unfold Assembly.mergeBody
  split
  · exact h
  · exact (h.edit (.merge _ attrs)).set rfl

theorem replaceBody (htag : Tag.isVoid tag.name = false) :
    Edits declares first (a.replaceBody tag) := by
  unfold Assembly.replaceBody
  split
  · exact h
  · exact ite (fun _ => h) ((((h.edit (.detach _)).popTo _).insertTag htag).set rfl)

theorem insertBlock (htag : Tag.isVoid tag.name = false) : Edits declares first (a.insertBlock tag) :=
  h.closeParagraph.insertTag htag

theorem insertHeading (htag : Tag.isVoid tag.name = false) :
    Edits declares first (a.insertHeading tag) := by
  have hclosed : Edits declares first (if headings.contains a.closeParagraph.currentName then
      a.closeParagraph.pop else a.closeParagraph) :=
    ite (fun _ => h.closeParagraph.pop) h.closeParagraph
  exact hclosed.insertTag htag

theorem insertForm (htag : Tag.isVoid tag.name = false) : Edits declares first (a.insertForm tag) :=
  ite (fun _ => h) ((h.insertBlock htag).set rfl)

theorem insertListItem (htag : Tag.isVoid tag.name = false) :
    Edits declares first (a.insertListItem tag) := by
  have hmarked : Edits declares first { a with framesetOk := false } := h.set rfl
  unfold Assembly.insertListItem
  refine insertTag ?_ htag
  have hended : ∀ {c : Assembly}, Edits declares first c →
      Edits declares first (if c.inScope .button "p" then (c.endTag "p").assembly else c) :=
    fun hc => ite (fun _ => hc.endTag "p") hc
  apply hended
  split
  · exact hmarked.endTag _
  · exact hmarked

theorem insertAnchor (htag : Tag.isVoid tag.name = false) :
    Edits declares first (a.insertAnchor tag) := by
  unfold Assembly.insertAnchor
  refine (reconstruct ?_).insertFormatting htag
  split
  · exact h
  · exact ((h.endFormatting "a").forget _).filter _

theorem insertNobr (htag : Tag.isVoid tag.name = false) : Edits declares first (a.insertNobr tag) := by
  have hended : Edits declares first (if a.reconstruct.inScope .ordinary "nobr" then
      (a.reconstruct.endFormatting "nobr").reconstruct else a.reconstruct) :=
    ite (fun _ => (h.reconstruct.endFormatting "nobr").reconstruct) h.reconstruct
  exact hended.insertFormatting htag

theorem insertFlowing (htag : Tag.isVoid tag.name = false) :
    Edits declares first (a.insertFlowing tag) :=
  h.reconstruct.insertTag htag

theorem insertFlowingEmpty (tag : StartTag) : Edits declares first (a.insertFlowingEmpty tag) :=
  (h.reconstruct.insertEmpty tag).set rfl

theorem insertInput (tag : StartTag) : Edits declares first (a.insertInput tag) :=
  ite (fun _ => (h.insertFlowingEmpty tag).set rfl) (h.insertFlowingEmpty tag)

theorem insertRule (tag : StartTag) : Edits declares first (a.insertRule tag) :=
  (h.closeParagraph.insertEmpty tag).set rfl

theorem insertIndex (tag : StartTag) : Edits declares first (a.insertIndex tag) := by
  refine ite (fun _ => h) ?_
  have hform : Edits declares first
      (a.insertForm { name := "form", attrs := tag.attrs.filter (·.1 == "action") }) :=
    h.insertForm (show Tag.isVoid "form" = false by decide)
  have hlabel := (hform.insertRule { name := "hr" }).insertFlowing
    (show Tag.isVoid ({ name := "label" } : StartTag).name = false by decide)
  have hinput := (hlabel.bodyText ((tag.attr? "prompt").getD indexPrompt)).insertInput
    { name := "input",
      attrs := nameIndex (tag.attrs.filter fun entry => entry.1 != "action" && entry.1 != "prompt") }
  exact ((hinput.endOther "label").insertRule { name := "hr" }).endForm

theorem insertOption (htag : Tag.isVoid tag.name = false) :
    Edits declares first (a.insertOption tag) := by
  have hended : Edits declares first
      (if a.currentName == "option" then (a.endTag "option").assembly else a) :=
    ite (fun _ => h.endTag "option") h
  exact hended.insertFlowing htag

theorem insertRuby (htag : Tag.isVoid tag.name = false) : Edits declares first (a.insertRuby tag) := by
  have hclosed : Edits declares first (if a.inScope .ordinary "ruby" then a.closeImplied else a) :=
    ite (fun _ => h.closeImplied) h
  exact hclosed.insertTag htag

theorem insertForeign {vocabulary : Vocabulary}
    (hvocabulary : vocabulary ≠ .html) (tag : StartTag) :
    Edits declares first (a.insertForeign vocabulary tag) := by
  have hkind : ∀ name, (Kind.mk vocabulary name).isVoid = false := by
    intro name
    simp [Kind.isVoid, Kind.isHtml, hvocabulary]
  have hopened : ∀ name, Edits declares first
      (a.insertElement ⟨vocabulary, name⟩ (foreignAttrs vocabulary tag.attrs)) :=
    fun name => h.edit (.start (hkind name) _)
  exact ite (fun _ => (hopened _).pop) (hopened _)

theorem insertTable (htag : Tag.isVoid tag.name = false) :
    Edits declares first (a.insertTable tag) := by
  have hclosed : Edits declares first (if a.oldRules then a else a.closeParagraph) :=
    ite (fun _ => h) h.closeParagraph
  exact (hclosed.insertTag htag).set rfl

/-- In the body, what cannot have contents is closed at once or left out. -/
theorem startInBody_of_isVoid (htag : Tag.isVoid tag.name = true)
    (hmeta : tag.name = "meta" → declares) : Edits declares first (a.startInBody tag).assembly := by
  obtain ⟨name, attrs, selfClosing⟩ := tag
  have hmem : name ∈ Tag.void := List.contains_iff_mem.mp htag
  simp only [Tag.void, List.mem_cons, List.not_mem_nil, or_false] at hmem
  -- One case for each name of the table, in its order.
  rcases hmem with rfl | rfl | rfl | rfl | rfl | rfl | rfl | rfl | rfl | rfl | rfl | rfl | rfl | rfl |
    rfl | rfl
  · exact h.insertFlowingEmpty _
  · exact h.insertHeadElement hmeta
  · exact h.insertFlowingEmpty _
  · exact h
  · exact h.insertHeadElement hmeta
  · exact h.insertFlowingEmpty _
  · exact h.insertRule _
  · exact h.insertFlowingEmpty _
  · exact h.insertInput _
  · exact h.insertFlowingEmpty _
  · exact h.insertHeadElement hmeta
  · exact h.insertHeadElement hmeta
  · exact h.insertEmpty _
  · exact h.insertEmpty _
  · exact h.insertEmpty _
  · exact h.insertFlowingEmpty _

theorem startInBody (hmeta : tag.name = "meta" → declares) :
    Edits declares first (a.startInBody tag).assembly := by
  cases htag : Tag.isVoid tag.name with
  | true => exact h.startInBody_of_isVoid htag hmeta
  | false =>
      refine reply (fun _ => h.mergeRoot tag.attrs) ?_
      refine reply (fun _ => h.insertHeadElement hmeta) ?_
      refine reply (fun _ => h.mergeBody tag.attrs) ?_
      refine reply (fun _ => h.replaceBody htag) ?_
      refine reply (fun _ => h.insertBlock htag) ?_
      refine reply (fun _ => h.insertHeading htag) ?_
      refine reply (fun _ => (h.insertBlock htag).set rfl) ?_
      refine reply (fun _ => h.insertForm htag) ?_
      refine reply (fun _ => h.insertListItem htag) ?_
      refine reply (fun _ => (h.insertBlock htag).set rfl) ?_
      refine reply (fun _ => h.insertAnchor htag) ?_
      refine reply (fun _ => h.insertNobr htag) ?_
      refine reply (fun _ => h.reconstruct.insertFormatting htag) ?_
      refine reply (fun _ => reply (fun _ => h.endBlock "button") ((h.insertFlowing htag).set rfl)) ?_
      refine reply (fun _ => ((h.insertFlowing htag).edit .mark).set rfl) ?_
      refine reply (fun _ => ?_) ?_
      · have hopened : Edits declares first { a.closeParagraph.reconstruct with framesetOk := false } :=
          h.closeParagraph.reconstruct.set rfl
        exact hopened.insertTextElement htag _
      refine reply (fun _ => h.insertTable htag) ?_
      refine reply (fun _ => h.insertFlowingEmpty tag) ?_
      refine reply (fun _ => h.insertEmpty tag) ?_
      refine reply (fun _ => h.insertInput tag) ?_
      refine reply (fun _ => h.insertRule tag) ?_
      refine reply (fun _ => h.insertFlowingEmpty _) ?_
      refine reply (fun _ => h.insertIndex tag) ?_
      refine reply (fun _ => (h.insertTag htag).set rfl) ?_
      refine reply (fun _ => ?_) ?_
      · have hmarked : Edits declares first { a with framesetOk := false } := h.set rfl
        exact hmarked.insertTextElement htag _
      refine reply (fun _ => h.insertTextElement htag _) ?_
      refine reply (fun _ => (h.insertFlowing htag).set rfl) ?_
      refine reply (fun _ => h.insertRuby htag) ?_
      refine reply (fun _ => h.insertOption htag) ?_
      refine reply (fun _ => h.reconstruct.insertForeign (by decide) tag) ?_
      refine reply (fun _ => h.reconstruct.insertForeign (by decide) tag) ?_
      exact reply (fun _ => h) (h.insertFlowing htag)

theorem insertTablePart (htag : Tag.isVoid tag.name = false) (mode : Mode) :
    Edits declares first (a.insertTablePart tag mode) :=
  ((h.popTo _).insertTag htag).set rfl

theorem startInTable (hmeta : tag.name = "meta" → declares) :
    Edits declares first (a.startInTable tag).assembly := by
  have hfostering : Edits declares first { a with fostering := true } := h.set rfl
  refine reply (fun _ => h.mergeRoot tag.attrs) ?_
  refine reply (fun hname =>
    (((h.popTo _).edit .mark).insertTag (isVoid_of_beq hname (by decide))).set rfl) ?_
  refine reply (fun hname => h.insertTablePart (isVoid_of_beq hname (by decide)) _) ?_
  refine reply (fun _ => h.insertTablePart (by decide) _) ?_
  refine reply (fun hname => h.insertTablePart (isVoid_of_contains hname (by decide)) _) ?_
  refine reply (fun _ => h.insertTablePart (by decide) _) ?_
  refine reply (fun _ => reply (fun _ => h.endTag "table") (h.endTag "table")) ?_
  refine reply (fun _ => h.insertHeadElement hmeta) ?_
  refine reply (fun _ => h.insertEmpty tag) ?_
  refine reply (fun _ => reply (fun _ => h) ((h.insertEmpty tag).set rfl)) ?_
  exact (hfostering.startInBody hmeta).set rfl

theorem startInCaption (hmeta : tag.name = "meta" → declares) :
    Edits declares first (a.startInCaption tag).assembly := by
  refine reply (fun _ => h.mergeRoot tag.attrs) ?_
  exact reply (fun _ => reply (fun _ => h.endCaption) h) (h.startInBody hmeta)

theorem startInColumnGroup : Edits declares first (a.startInColumnGroup tag).assembly := by
  refine reply (fun _ => h.mergeRoot tag.attrs) ?_
  exact reply (fun _ => h.insertEmpty tag) h.leaveColumnGroup

theorem insertRow (htag : Tag.isVoid tag.name = false) : Edits declares first (a.insertRow tag) :=
  ((h.popTo _).insertTag htag).set rfl

theorem startInTableBody (hmeta : tag.name = "meta" → declares) :
    Edits declares first (a.startInTableBody tag).assembly := by
  refine reply (fun _ => h.mergeRoot tag.attrs) ?_
  refine reply (fun hname => h.insertRow (isVoid_of_beq hname (by decide))) ?_
  refine reply (fun _ => h.insertRow (by decide)) ?_
  exact reply (fun _ => h.leaveRowGroup) (h.startInTable hmeta)

theorem startInRow (hmeta : tag.name = "meta" → declares) :
    Edits declares first (a.startInRow tag).assembly := by
  refine reply (fun _ => h.mergeRoot tag.attrs) ?_
  refine reply (fun hname => ?_) ?_
  · have htag : Tag.isVoid tag.name = false := by
      rcases Bool.or_eq_true_iff.mp hname with hname | hname <;> exact isVoid_of_beq hname (by decide)
    exact (((h.popTo _).insertTag htag).edit .mark).set rfl
  exact reply (fun _ => h.leaveRow) (h.startInTable hmeta)

theorem startInCell (hmeta : tag.name = "meta" → declares) :
    Edits declares first (a.startInCell tag).assembly := by
  refine reply (fun _ => h.mergeRoot tag.attrs) ?_
  exact reply (fun _ => reply (fun _ => h.closeCell) h) (h.startInBody hmeta)

theorem closeOption : Edits declares first a.closeOption :=
  ite (fun _ => h.pop) h

theorem startInSelect (hmeta : tag.name = "meta" → declares) :
    Edits declares first (a.startInSelect tag).assembly := by
  have hclosed : Edits declares first
      (if a.closeOption.currentName == "optgroup" then a.closeOption.pop else a.closeOption) :=
    ite (fun _ => h.closeOption.pop) h.closeOption
  refine reply (fun _ => h.mergeRoot tag.attrs) ?_
  refine reply (fun hname => h.closeOption.insertTag (isVoid_of_beq hname (by decide))) ?_
  refine reply (fun hname => hclosed.insertTag (isVoid_of_beq hname (by decide))) ?_
  refine reply (fun _ => h.endSelect) ?_
  refine reply (fun _ => reply (fun _ => h.endSelect) h) ?_
  exact reply (fun _ => h.insertHeadElement hmeta) h

theorem startInFrameset : Edits declares first (a.startInFrameset tag).assembly := by
  refine reply (fun _ => h.mergeRoot tag.attrs) ?_
  refine reply (fun hname => h.insertTag (isVoid_of_beq hname (by decide))) ?_
  refine reply (fun _ => h.insertEmpty tag) ?_
  exact reply (fun hname => h.insertTextElement (isVoid_of_beq hname (by decide)) _) h

theorem startAfterFrameset : Edits declares first (a.startAfterFrameset tag).assembly := by
  refine reply (fun _ => h.mergeRoot tag.attrs) ?_
  exact reply (fun hname => h.insertTextElement (isVoid_of_beq hname (by decide)) _) h

theorem startAfterBody : Edits declares first (a.startAfterBody tag).assembly :=
  reply (fun _ => h.mergeRoot tag.attrs) (h.set rfl)

theorem startTag (hmeta : tag.name = "meta" → declares) :
    Edits declares first (a.startTag tag).assembly := by
  unfold Assembly.startTag
  cases a.mode with
  | initial => exact h.set rfl
  | beforeHtml => exact h.edit .root
  | beforeHead =>
      exact reply (fun _ => h.mergeRoot tag.attrs) (reply (fun _ => h.insertHead tag.attrs) h.insertHead)
  | inHead => exact h.startInHead hmeta
  | afterHead => exact h.startAfterHead hmeta
  | inBody => exact h.startInBody hmeta
  | text => exact h
  | inTable => exact h.startInTable hmeta
  | inTableText => exact h.leaveTableText
  | inCaption => exact h.startInCaption hmeta
  | inColumnGroup => exact h.startInColumnGroup
  | inTableBody => exact h.startInTableBody hmeta
  | inRow => exact h.startInRow hmeta
  | inCell => exact h.startInCell hmeta
  | inSelect => exact h.startInSelect hmeta
  | inSelectInTable => exact reply (fun _ => h.endSelect) (h.startInSelect hmeta)
  | afterBody => exact h.startAfterBody
  | inFrameset => exact h.startInFrameset
  | afterFrameset => exact h.startAfterFrameset
  | afterAfterBody => exact h.startAfterBody
  | afterAfterFrameset => exact h.startAfterFrameset

/-! ### Tokens -/

theorem holdBack (c : Char) : Edits declares first (a.holdBack c) :=
  ite (fun _ => h) (h.set rfl)

theorem enterTableText (c : Char) : Edits declares first (a.enterTableText c) := by
  have hentered : Edits declares first { a with mode := .inTableText, tableReturn := a.mode } := h.set rfl
  exact hentered.holdBack c

theorem character (c : Char) : Edits declares first (a.character c).assembly := by
  unfold Assembly.character
  cases a.mode with
  | initial => exact h.set rfl
  | beforeHtml => exact h.edit .root
  | beforeHead => exact h.insertHead
  | inHead => exact h.leaveHead
  | afterHead => exact h.insertBody
  | inBody | inCaption | inCell => exact h.bodyText _
  | text => exact h.insertText _
  | inTable | inTableBody | inRow => exact h.enterTableText c
  | inTableText => exact h.holdBack c
  | inColumnGroup => exact h.leaveColumnGroup
  | inSelect | inSelectInTable => exact ite (fun _ => h) (h.insertText _)
  | afterBody | afterAfterBody => exact h.set rfl
  | inFrameset | afterFrameset | afterAfterFrameset => exact h

theorem space (c : Char) : Edits declares first (a.space c) := by
  unfold Assembly.space
  cases a.mode with
  | initial | beforeHtml | beforeHead => exact h
  | inBody | afterAfterBody | afterAfterFrameset => exact h.bodySpace c
  | inTable | inTableBody | inRow => exact h.enterTableText c
  | inTableText => exact h.holdBack c
  | _ => exact h.insertText _

theorem comment (data : String) : Edits declares first (a.comment data).assembly := by
  unfold Assembly.comment
  cases a.mode with
  | initial | beforeHtml | afterAfterBody | afterAfterFrameset => exact h.edit (.appendToDocument rfl)
  | afterBody => exact h.edit (.appendToRoot rfl)
  | inTableText => exact h.leaveTableText
  | _ => exact h.edit (.append rfl)

theorem doctype (name : String) (publicId systemId : Option String) (correct : Bool) :
    Edits declares first (a.doctype name publicId systemId correct) := by
  unfold Assembly.doctype
  cases a.mode with
  | initial => exact (h.edit (.appendToDocument rfl)).set rfl
  | _ => exact h

theorem startInForeign {label : Label} {outer : List Label}
    (hstack : a.stack = label :: outer) (hlabel : label.kind.isHtml = false) (tag : StartTag) :
    Edits declares first (a.startInForeign tag).assembly := by
  have hvocabulary : label.kind.vocabulary ≠ .html := by simpa [Kind.isHtml] using hlabel
  refine reply (fun _ => h.shrink (List.dropWhile_sublist _).subset) ?_
  rw [hstack]
  exact h.insertForeign hvocabulary tag

theorem endInForeign (name : String) : Edits declares first (a.endInForeign name).assembly := by
  unfold Assembly.endInForeign
  split
  · have hleft : Edits declares first (if a.mode == .inTableText then a.leaveTableText else a) :=
      ite (fun _ => h.leaveTableText) h
    exact hleft.popThroughId _
  · exact h.endTag name

theorem foreignText (c : Char) : Edits declares first (a.foreignText c) := by
  refine ite (fun _ => h.insertText _) ?_
  exact ite (fun _ => h.insertText _) ((h.insertText _).set rfl)

theorem react {token : Token}
    (hmeta : ∀ tag, token = .startTag tag → tag.name = "meta" → declares) :
    Edits declares first (a.react token).assembly := by
  by_cases hforeign : a.isForeignToken token = true
  · rw [Assembly.react, if_pos hforeign]
    cases token with
    | startTag tag =>
        unfold isForeignToken at hforeign
        split at hforeign
        · cases hforeign
        · next label outer hstack =>
            have hlabel : label.kind.isHtml = false := by
              simpa using (Bool.and_eq_true_iff.mp hforeign).1
            exact h.startInForeign hstack hlabel tag
    | endTag name => exact h.endInForeign name
    | comment data => exact h.edit (.append rfl)
    | char c => exact h.foreignText c
    | space c => exact h.insertText _
    | doctype => exact h
    | overlong => exact h
  · rw [Assembly.react, if_neg hforeign]
    cases token with
    | startTag tag => exact h.startTag (hmeta tag rfl)
    | endTag name => exact h.endTag name
    | comment data => exact h.comment data
    | char c => exact h.character c
    | space c => exact h.space c
    | doctype name publicId systemId correct => exact h.doctype name publicId systemId correct
    | overlong => exact h

theorem settle {token : Token}
    (hmeta : ∀ tag, token = .startTag tag → tag.name = "meta" → declares) (tries : Nat) :
    Edits declares first (Assembly.settle tries a token) := by
  induction tries generalizing a with
  | zero => exact h
  | succ tries ih =>
      have hreact := h.react hmeta
      unfold Assembly.settle
      split
      · next hreply => rwa [hreply] at hreact
      · next hreply =>
          rw [hreply] at hreact
          exact ih hreact

theorem reactEnd : Edits declares first a.reactEnd.assembly := by
  unfold Assembly.reactEnd
  cases a.mode with
  | initial => exact h.set rfl
  | beforeHtml => exact h.edit .root
  | beforeHead => exact h.insertHead
  | inHead => exact h.leaveHead
  | afterHead => exact h.insertBody
  | text => exact h.pop.set rfl
  | inTableText => exact h.leaveTableText
  | inColumnGroup => exact h.leaveColumnGroup
  | _ => exact h

theorem settleEnd (tries : Nat) : Edits declares first (Assembly.settleEnd tries a) := by
  induction tries generalizing a with
  | zero => exact h
  | succ tries ih =>
      have hreact := h.reactEnd
      unfold Assembly.settleEnd
      split
      · next hreply => rwa [hreply] at hreact
      · next hreply =>
          rw [hreply] at hreact
          exact ih hreact

theorem take {token : Token}
    (hmeta : ∀ tag, token = .startTag tag → tag.name = "meta" → declares) :
    Edits declares first (a.take token) :=
  h.settle hmeta _

theorem finish : Edits declares first a.finish := h.settleEnd 16

end Rules

end Edits

/-! ### Declared encodings -/

theorem charsets_reopen (a : Assembly) (entry : Option Label) :
    (a.reopen entry).charsets = a.charsets := by
  cases entry with
  | none => rfl
  | some label =>
      change (a.insertElement label.kind _).charsets = a.charsets
      rw [insertElement_eq]

theorem charsets_foldl_reopen (a : Assembly) (lost : List (Option Label)) :
    (lost.foldl reopen a).charsets = a.charsets := by
  induction lost generalizing a with
  | nil => rfl
  | cons entry lost ih => rw [List.foldl_cons, ih, charsets_reopen]

theorem charsets_reconstruct (a : Assembly) : a.reconstruct.charsets = a.charsets := by
  unfold reconstruct
  dsimp only
  split
  · rfl
  · exact charsets_foldl_reopen ..

theorem charsets_wrap (count : Nat) (innermost : Bool) (move : Move) (around : List Label) :
    (wrap count innermost move around).assembly.charsets = move.assembly.charsets := by
  induction around generalizing count innermost move with
  | nil => cases count <;> rfl
  | cons label outer ih =>
      cases count with
      | zero => rfl
      | succ count =>
          unfold wrap
          split
          · exact ih ..
          · exact ih ..

theorem charsets_moveOut (a : Assembly) (formatting block : Label) :
    (a.moveOut formatting block).charsets = a.charsets := by
  unfold moveOut
  dsimp only [forget]
  split
  · exact charsets_wrap ..
  split
  · rw [placeBeforeTable_eq]
    exact charsets_wrap ..
  · exact charsets_wrap ..

theorem Edit.charsets_eq {b : Assembly} (hedit : Edit False a b) : b.charsets = a.charsets := by
  cases hedit with
  | set hcore => exact congrArg (·.2.2.2.2.2) hcore
  | insert => rw [insert_eq]
  | append => rw [append_eq]
  | appendToRoot => rw [appendToRoot_eq]
  | start => rw [insertElement_eq]
  | startAndEnd => rw [insertElement_eq, Assembly.pop]
  | reconstruct => exact a.charsets_reconstruct
  | moveOut => exact a.charsets_moveOut ..
  | declare hdeclares => cases hdeclares
  | _ => rfl

theorem Edits.charsets_eq {b : Assembly} (hedits : Edits False a b) : b.charsets = a.charsets := by
  induction hedits with
  | refl => rfl
  | tail _ hedit ih => rw [hedit.charsets_eq, ih]

/-- Only a `meta` tag declares an encoding. -/
theorem charsets_take (a : Assembly) {token : Token}
    (hmeta : ∀ tag, token = .startTag tag → tag.name ≠ "meta") :
    (a.take token).charsets = a.charsets :=
  Edits.charsets_eq (Edits.take .refl hmeta)

/-- The end of a text declares no encoding. -/
theorem charsets_finish (a : Assembly) : a.finish.charsets = a.charsets :=
  Edits.charsets_eq (Edits.finish .refl)

end Assembly

/-! ### Whole texts -/

namespace Parser

open Assembly

variable {first : Assembly} {p : Parser}

theorem edits_take (h : Edits True first p.assembly) (token : Token) :
    Edits True first (p.take token).assembly := by
  unfold Parser.take
  split
  · exact h
  split
  · exact h
  · have htaken : Edits True first (p.assembly.take token) := h.take fun _ _ _ => trivial
    dsimp only
    split
    · exact htaken.set rfl
    · exact htaken

theorem edits_takeAll (h : Edits True first p.assembly) (tokens : List Token) :
    Edits True first (tokens.foldl Parser.take p).assembly := by
  induction tokens generalizing p with
  | nil => exact h
  | cons token tokens ih => exact ih (edits_take h token)

theorem edits_step (h : Edits True first p.assembly) (c : Char) :
    Edits True first (p.step c).assembly := by
  have htaken : ∀ moved : Lexer.State × List Token,
      Edits True first (moved.2.foldl Parser.take { p with state := moved.1 }).assembly :=
    fun moved => @edits_takeAll first { p with state := moved.1 } h moved.2
  unfold Parser.step
  split
  · exact h
  · exact htaken _

theorem edits_feed (h : Edits True first p.assembly) (text : List Char) :
    Edits True first (p.feed text).assembly := by
  induction text generalizing p with
  | nil => exact h
  | cons c text ih => exact ih (edits_step h c)

theorem edits_finish (h : Edits True first p.assembly) : Edits True first p.finish.assembly := by
  have hlast := edits_takeAll h (Lexer.finish p.state)
  unfold Parser.finish
  dsimp only
  split
  · exact hlast
  · exact hlast.finish

end Parser

end HtmlLayout.Html
