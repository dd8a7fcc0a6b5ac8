import HtmlLayout.Html.Assembly.EndTag
import HtmlLayout.Encoding.Declared

/-!
# Start tags

The rules for start tags, mode by mode. A start tag inserts its element, after closing what cannot
contain it and opening what has to contain it. Elements whose content is read as text change the
way the following text is read. Where a start tag first ends something around it, it is looked at
again afterwards.
-/

namespace HtmlLayout.Html.Assembly

/-! ### In the head -/

/-- Elements of the head that hold nothing, the one that declares an encoding apart. -/
def headEmpties : List String := ["base", "basefont", "bgsound", "command", "link"]

def noteCharset (a : Assembly) (tag : StartTag) : Assembly :=
  match tag.attr? "charset" with
  | some label => { a with charsets := label :: a.charsets }
  | none =>
      match tag.attr? "content", tag.attr? "http-equiv" with
      | some content, some pragma =>
          if Text.lower pragma == "content-type" then
            match Encoding.charsetIn content with
            | some label => { a with charsets := label :: a.charsets }
            | none => a
          else a
      | _, _ => a

/-- The element of a start tag that belongs to the head. -/
def insertHeadElement (a : Assembly) (tag : StartTag) : Assembly :=
  if tag.name == "title" then a.insertTextElement tag .rcdata
  else if ["noframes", "style", "noscript"].contains tag.name then a.insertTextElement tag .rawtext
  else if tag.name == "script" then a.insertTextElement tag .script
  else if tag.name == "meta" then (a.insertEmpty tag).noteCharset tag
  else a.insertEmpty tag

def headNames : List String := ["title", "noframes", "style", "noscript", "script", "meta"] ++ headEmpties

def startInHead (a : Assembly) (tag : StartTag) : Reply :=
  if tag.name == "html" then .done (a.mergeRoot tag.attrs)
  else if headNames.contains tag.name then .done (a.insertHeadElement tag)
  else if tag.name == "head" then .done a
  else .again a.leaveHead

/-- Start tags that still go to the head after its end. -/
def lateHeadNames : List String :=
  ["base", "basefont", "bgsound", "link", "meta", "noframes", "script", "style", "title"]

/-- Inserts an element into the head after its end: the head is open for that long. -/
def insertLate (a : Assembly) (tag : StartTag) : Assembly :=
  match a.head with
  | none => a
  | some head =>
      let b := { a with stack := head :: a.stack }.insertHeadElement tag
      { b with stack := b.stack.filter fun label => label.id != head.id }

def startAfterHead (a : Assembly) (tag : StartTag) : Reply :=
  if tag.name == "html" then .done (a.mergeRoot tag.attrs)
  else if tag.name == "body" then .done { a.insertTag tag with framesetOk := false, mode := .inBody }
  else if tag.name == "frameset" then .done { a.insertTag tag with mode := .inFrameset }
  else if lateHeadNames.contains tag.name then .done (a.insertLate tag)
  else if tag.name == "head" then .done a
  else .again a.insertBody

/-! ### In the body -/

def mergeBody (a : Assembly) (attrs : List (String × String)) : Assembly :=
  match a.openBody? with
  | none => a
  | some body => { a.mergeAttrs body attrs with framesetOk := false }

/-- A frameset takes the place of a body that is still empty in spirit. -/
def replaceBody (a : Assembly) (tag : StartTag) : Assembly :=
  match a.openBody? with
  | none => a
  | some body =>
      if !a.framesetOk then a
      else
        let nodes := (Draft.detachAll body.id a.nodes).elim a.nodes Prod.snd
        { ({ a with nodes }.popTo ["html"]).insertTag tag with mode := .inFrameset }

def blockStarts : List String :=
  ["address", "article", "aside", "blockquote", "center", "details", "dialog", "dir", "div", "dl", "fieldset",
    "figcaption", "figure", "footer", "header", "hgroup", "main", "menu", "nav", "ol", "p", "section", "summary", "ul"]

/-- Inserts a block after ending a paragraph. -/
def insertBlock (a : Assembly) (tag : StartTag) : Assembly :=
  a.closeParagraph.insertTag tag

/-- Inserts a heading; a heading that is innermost ends. -/
def insertHeading (a : Assembly) (tag : StartTag) : Assembly :=
  let b := a.closeParagraph
  (if headings.contains b.currentName then b.pop else b).insertTag tag

/-- Inserts a preformatted block, in which a first newline is dropped. -/
def insertPreformatted (a : Assembly) (tag : StartTag) : Assembly :=
  { a.insertBlock tag with framesetOk := false, dropNewline := true }

/-- Inserts a form unless one is open. -/
def insertForm (a : Assembly) (tag : StartTag) : Assembly :=
  if a.form.isSome then a
  else
    let b := a.insertBlock tag
    { b with form := b.stack.head?.map Label.id }

/-- The name of the open list item that a new one ends. -/
def endedItem? (names : List String) : List Label → Option String
  | [] => none
  | label :: outer =>
      if names.contains label.name then some label.name
      else if label.kind.isSpecial && !(["address", "div", "p"].contains label.name) then none
      else endedItem? names outer

/-- Inserts a list item, by the rules of the current mode for the ones it ends. -/
def insertListItem (a : Assembly) (tag : StartTag) : Assembly :=
  let names := if tag.name == "li" then ["li"] else ["dt", "dd"]
  let b := { a with framesetOk := false }
  let c := match endedItem? names b.stack with
    | some name => (b.endTag name).assembly
    | none => b
  let d := if c.inScope .button "p" then (c.endTag "p").assembly else c
  d.insertTag tag

/-- Inserts an anchor; one that is still in the list of formatting elements ends. -/
def insertAnchor (a : Assembly) (tag : StartTag) : Assembly :=
  let b := match a.lastFormatting? "a" with
    | none => a
    | some anchor =>
        let c := (a.endFormatting "a").forget anchor.id
        { c with stack := c.stack.filter (·.id != anchor.id) }
  b.reconstruct.insertFormatting tag

/-- Inserts text that must not be broken into lines; such text in scope ends. -/
def insertNobr (a : Assembly) (tag : StartTag) : Assembly :=
  let b := a.reconstruct
  let c := if b.inScope .ordinary "nobr" then (b.endFormatting "nobr").reconstruct else b
  c.insertFormatting tag

def insertFlowing (a : Assembly) (tag : StartTag) : Assembly :=
  a.reconstruct.insertTag tag

/-- Inserts an element that flows with the text and holds nothing. -/
def insertFlowingEmpty (a : Assembly) (tag : StartTag) : Assembly :=
  { (a.insertFlowing tag).pop with framesetOk := false }

def isHiddenInput (tag : StartTag) : Bool :=
  (tag.attr? "type").any fun kind => Text.lower kind == "hidden"

/-- Inserts an input; a hidden one does not show that there is a body. -/
def insertInput (a : Assembly) (tag : StartTag) : Assembly :=
  let b := a.insertFlowingEmpty tag
  if isHiddenInput tag then { b with framesetOk := a.framesetOk } else b

def insertRule (a : Assembly) (tag : StartTag) : Assembly :=
  { (a.insertBlock tag).pop with framesetOk := false }

/-- The words of an index that gives none. -/
def indexPrompt : String := "This is a searchable index. Enter search keywords: "

/-- Sets the name of an index's input, in place of one that is given. -/
def nameIndex (attrs : List (String × String)) : List (String × String) :=
  if attrs.any (·.1 == "name") then attrs.map fun entry => if entry.1 == "name" then ("name", "isindex") else entry
  else attrs ++ [("name", "isindex")]

/-- Inserts an index: a form with a labelled input between two rules. -/
def insertIndex (a : Assembly) (tag : StartTag) : Assembly :=
  if a.form.isSome then a
  else
    let action := tag.attrs.filter (·.1 == "action")
    let rest := tag.attrs.filter fun entry => entry.1 != "action" && entry.1 != "prompt"
    let form := a.insertForm { name := "form", attrs := action }
    let label := (form.insertRule { name := "hr" }).insertFlowing { name := "label" }
    let worded := label.bodyText ((tag.attr? "prompt").getD indexPrompt)
    let input := worded.insertInput { name := "input", attrs := nameIndex rest }
    ((input.endOther "label").insertRule { name := "hr" }).endForm

/-- Inserts a field of text, in which a first newline is dropped. -/
def insertTextArea (a : Assembly) (tag : StartTag) : Assembly :=
  { a.insertTag tag with content := some (.rcdata (some tag.name)), dropNewline := true, framesetOk := false }

/-- Inserts an option or a group of options; an option that is innermost ends. -/
def insertOption (a : Assembly) (tag : StartTag) : Assembly :=
  let b := if a.currentName == "option" then (a.endTag "option").assembly else a
  b.insertFlowing tag

/-- The modes in which a selection knows that it is inside a table. -/
def tableModes : List Mode := [.inTable, .inCaption, .inColumnGroup, .inTableBody, .inRow, .inCell]

def insertSelect (a : Assembly) (tag : StartTag) : Assembly :=
  { a.insertFlowing tag with
    framesetOk := false
    mode := if tableModes.contains a.mode then .inSelectInTable else .inSelect }

def insertRuby (a : Assembly) (tag : StartTag) : Assembly :=
  (if a.inScope .ordinary "ruby" then a.closeImplied else a).insertTag tag

/-- Inserts a foreign element; one that closes itself is not opened. -/
def insertForeign (a : Assembly) (vocabulary : Vocabulary) (tag : StartTag) : Assembly :=
  let name := if vocabulary == .svg then spelling svgTags tag.name else tag.name
  let b := a.insertElement ⟨vocabulary, name⟩ (foreignAttrs vocabulary tag.attrs)
  if tag.selfClosing then b.pop else b

/-- Inserts a table. Under the old rules it goes into an open paragraph. -/
def insertTable (a : Assembly) (tag : StartTag) : Assembly :=
  let b := if a.oldRules then a else a.closeParagraph
  { b.insertTag tag with framesetOk := false, mode := .inTable }

/-- Start tags that mean nothing in the body. -/
def misplaced : List String :=
  ["caption", "col", "colgroup", "frame", "head", "tbody", "td", "tfoot", "th", "thead", "tr"]

def startInBody (a : Assembly) (tag : StartTag) : Reply :=
  let name := tag.name
  if name == "html" then .done (a.mergeRoot tag.attrs)
  else if (headEmpties ++ ["meta", "script", "style", "title"]).contains name then .done (a.insertHeadElement tag)
  else if name == "body" then .done (a.mergeBody tag.attrs)
  else if name == "frameset" then .done (a.replaceBody tag)
  else if blockStarts.contains name then .done (a.insertBlock tag)
  else if headings.contains name then .done (a.insertHeading tag)
  else if name == "pre" || name == "listing" then .done (a.insertPreformatted tag)
  else if name == "form" then .done (a.insertForm tag)
  else if ["li", "dd", "dt"].contains name then .done (a.insertListItem tag)
  else if name == "plaintext" then .done { a.insertBlock tag with content := some .plaintext }
  else if name == "a" then .done (a.insertAnchor tag)
  else if name == "nobr" then .done (a.insertNobr tag)
  else if formattingNames.contains name then .done (a.reconstruct.insertFormatting tag)
  else if name == "button" then
    if a.inScope .ordinary "button" then .again (a.endBlock "button")
    else .done { a.insertFlowing tag with framesetOk := false }
  else if embeddedNames.contains name then .done { (a.insertFlowing tag).addMarker with framesetOk := false }
  else if name == "xmp" then
    .done ({ a.closeParagraph.reconstruct with framesetOk := false }.insertTextElement tag .rawtext)
  else if name == "table" then .done (a.insertTable tag)
  else if ["area", "br", "embed", "img", "keygen", "wbr"].contains name then .done (a.insertFlowingEmpty tag)
  else if ["param", "source", "track"].contains name then .done (a.insertEmpty tag)
  else if name == "input" then .done (a.insertInput tag)
  else if name == "hr" then .done (a.insertRule tag)
  else if name == "image" then .done (a.insertFlowingEmpty { tag with name := "img" })
  else if name == "isindex" then .done (a.insertIndex tag)
  else if name == "textarea" then .done (a.insertTextArea tag)
  else if name == "iframe" then .done ({ a with framesetOk := false }.insertTextElement tag .rawtext)
  else if ["noscript", "noembed", "noframes"].contains name then .done (a.insertTextElement tag .rawtext)
  else if name == "select" then .done (a.insertSelect tag)
  else if name == "rp" || name == "rt" then .done (a.insertRuby tag)
  else if name == "option" || name == "optgroup" then .done (a.insertOption tag)
  else if name == "math" then .done (a.reconstruct.insertForeign .mathml tag)
  else if name == "svg" then .done (a.reconstruct.insertForeign .svg tag)
  else if misplaced.contains name then .done a
  else .done (a.insertFlowing tag)

/-! ### In tables -/

/-- Closes all inside a table. -/
def clearToTable (a : Assembly) : Assembly := a.popTo ["table", "html"]

/-- A start tag that the body deals with, though the innermost element is a table. -/
def fosterStart (a : Assembly) (tag : StartTag) : Assembly :=
  { ({ a with fostering := true }.startInBody tag).assembly with fostering := false }

def insertTablePart (a : Assembly) (tag : StartTag) (mode : Mode) : Assembly :=
  { a.clearToTable.insertTag tag with mode }

def startInTable (a : Assembly) (tag : StartTag) : Reply :=
  let name := tag.name
  if name == "html" then .done (a.mergeRoot tag.attrs)
  else if name == "caption" then .done { a.clearToTable.addMarker.insertTag tag with mode := .inCaption }
  else if name == "colgroup" then .done (a.insertTablePart tag .inColumnGroup)
  else if name == "col" then .again (a.insertTablePart { name := "colgroup" } .inColumnGroup)
  else if rowGroups.contains name then .done (a.insertTablePart tag .inTableBody)
  else if ["td", "th", "tr"].contains name then .again (a.insertTablePart { name := "tbody" } .inTableBody)
  else if name == "table" then
    let b := (a.endTag "table").assembly
    if b.container.isNone then .again b else .done b
  else if name == "style" || name == "script" then .done (a.insertHeadElement tag)
  else if name == "input" && isHiddenInput tag then .done (a.insertEmpty tag)
  else if name == "form" then
    if a.form.isSome then .done a
    else
      let b := a.insertTag tag
      .done { b.pop with form := b.stack.head?.map Label.id }
  else .done (a.fosterStart tag)

def startInCaption (a : Assembly) (tag : StartTag) : Reply :=
  if tag.name == "html" then .done (a.mergeRoot tag.attrs)
  else if ["caption", "col", "colgroup", "tbody", "td", "tfoot", "th", "thead", "tr"].contains tag.name then
    if a.inCaptionScope then .again a.endCaption else .done a
  else a.startInBody tag

def startInColumnGroup (a : Assembly) (tag : StartTag) : Reply :=
  if tag.name == "html" then .done (a.mergeRoot tag.attrs)
  else if tag.name == "col" then .done (a.insertEmpty tag)
  else a.leaveColumnGroup

def insertRow (a : Assembly) (tag : StartTag) : Assembly :=
  { a.clearToRowGroup.insertTag tag with mode := .inRow }

def startInTableBody (a : Assembly) (tag : StartTag) : Reply :=
  if tag.name == "html" then .done (a.mergeRoot tag.attrs)
  else if tag.name == "tr" then .done (a.insertRow tag)
  else if tag.name == "td" || tag.name == "th" then .again (a.insertRow { name := "tr" })
  else if ["caption", "col", "colgroup", "tbody", "tfoot", "thead"].contains tag.name then a.leaveRowGroup
  else a.startInTable tag

def startInRow (a : Assembly) (tag : StartTag) : Reply :=
  if tag.name == "html" then .done (a.mergeRoot tag.attrs)
  else if tag.name == "td" || tag.name == "th" then
    .done { (a.clearToRow.insertTag tag).addMarker with mode := .inCell }
  else if ["caption", "col", "colgroup", "tbody", "tfoot", "thead", "tr"].contains tag.name then a.leaveRow
  else a.startInTable tag

def startInCell (a : Assembly) (tag : StartTag) : Reply :=
  if tag.name == "html" then .done (a.mergeRoot tag.attrs)
  else if ["caption", "col", "colgroup", "tbody", "td", "tfoot", "th", "thead", "tr"].contains tag.name then
    if a.inScope .table "td" || a.inScope .table "th" then .again a.closeCell else .done a
  else a.startInBody tag

/-! ### In selections -/

/-- Closes an innermost option. -/
def closeOption (a : Assembly) : Assembly :=
  if a.currentName == "option" then a.pop else a

def startInSelect (a : Assembly) (tag : StartTag) : Reply :=
  let name := tag.name
  if name == "html" then .done (a.mergeRoot tag.attrs)
  else if name == "option" then .done (a.closeOption.insertTag tag)
  else if name == "optgroup" then
    let b := a.closeOption
    .done ((if b.currentName == "optgroup" then b.pop else b).insertTag tag)
  else if name == "select" then .done a.endSelect
  else if ["input", "keygen", "textarea"].contains name then
    if a.inScope .select "select" then .again a.endSelect else .done a
  else if name == "script" then .done (a.insertHeadElement tag)
  else .done a

def startInSelectInTable (a : Assembly) (tag : StartTag) : Reply :=
  if selectEnders.contains tag.name then .again a.endSelect else a.startInSelect tag

/-! ### Elsewhere -/

def startInFrameset (a : Assembly) (tag : StartTag) : Reply :=
  if tag.name == "html" then .done (a.mergeRoot tag.attrs)
  else if tag.name == "frameset" then .done (a.insertTag tag)
  else if tag.name == "frame" then .done (a.insertEmpty tag)
  else if tag.name == "noframes" then .done (a.insertTextElement tag .rawtext)
  else .done a

def startAfterFrameset (a : Assembly) (tag : StartTag) : Reply :=
  if tag.name == "html" then .done (a.mergeRoot tag.attrs)
  else if tag.name == "noframes" then .done (a.insertTextElement tag .rawtext)
  else .done a

/-- A start tag after the body: whatever it is, the body goes on. -/
def startAfterBody (a : Assembly) (tag : StartTag) : Reply :=
  if tag.name == "html" then .done (a.mergeRoot tag.attrs) else .again { a with mode := .inBody }

/-- A start tag by the rules of the current mode. -/
def startTag (a : Assembly) (tag : StartTag) : Reply :=
  match a.mode with
  | .initial => .again a.startWithoutDoctype
  | .beforeHtml => .again a.insertRoot
  | .beforeHead =>
      if tag.name == "html" then .done (a.mergeRoot tag.attrs)
      else if tag.name == "head" then .done (a.insertHead tag.attrs)
      else .again a.insertHead
  | .inHead => a.startInHead tag
  | .afterHead => a.startAfterHead tag
  | .inBody => a.startInBody tag
  | .text => .done a
  | .inTable => a.startInTable tag
  | .inTableText => .again a.leaveTableText
  | .inCaption => a.startInCaption tag
  | .inColumnGroup => a.startInColumnGroup tag
  | .inTableBody => a.startInTableBody tag
  | .inRow => a.startInRow tag
  | .inCell => a.startInCell tag
  | .inSelect => a.startInSelect tag
  | .inSelectInTable => a.startInSelectInTable tag
  | .afterBody => a.startAfterBody tag
  | .inFrameset => a.startInFrameset tag
  | .afterFrameset => a.startAfterFrameset tag
  | .afterAfterBody => a.startAfterBody tag
  | .afterAfterFrameset => a.startAfterFrameset tag

end HtmlLayout.Html.Assembly
