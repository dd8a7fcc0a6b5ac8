import HtmlLayout.Html.Assembly.Text

/-!
# End tags

The rules for end tags, mode by mode. An end tag closes its element if that is open in the scope
the element is looked for in, together with all that is open inside it; otherwise it is dropped,
with two exceptions: a lone end tag of a paragraph or of a line break makes an empty one. Where an
end tag first ends something around it, it is looked at again afterwards.
-/

namespace HtmlLayout.Html.Assembly

/-! ### In the body -/

/-- Closes the paragraph that is open in button scope, if one is. -/
def closeParagraph (a : Assembly) : Assembly :=
  if a.inScope .button "p" then a.close "p" (some "p") else a

/-- The end tag of a paragraph, which opens one if none is open. -/
def endParagraph (a : Assembly) : Assembly :=
  if a.inScope .button "p" then a.close "p" (some "p")
  else (a.insertHtml "p").close "p" (some "p")

def endBlock (a : Assembly) (name : String) : Assembly :=
  let b := if name == "pre" then { a with dropNewline := false } else a
  if b.inScope .ordinary name then b.close name else b

/-- The end tag of a form, which leaves elements inside the form open. -/
def endForm (a : Assembly) : Assembly :=
  let b := { a with form := none }
  match a.form with
  | none => b
  | some form =>
      if meets .ordinary (·.id == form) b.stack then
        let c := b.closeImplied
        { c with stack := c.stack.filter (·.id != form) }
      else b

def endListItem (a : Assembly) (name : String) : Assembly :=
  if a.inScope (if name == "li" then .listItem else .ordinary) name then a.close name (some name) else a

/-- The end tag of a heading, which closes a heading of any level. -/
def endHeading (a : Assembly) : Assembly :=
  if headings.any (a.inScope .ordinary) then (a.closeImplied.popTo headings).pop else a

def endEmbedded (a : Assembly) (name : String) : Assembly :=
  if a.inScope .ordinary name then (a.close name).clearToMarker else a

/-- The end tag of a line break, which makes one. -/
def endLineBreak (a : Assembly) : Assembly :=
  (a.reconstruct.insertHtml "br").pop

def endBody (a : Assembly) : Assembly :=
  if a.inScope .ordinary "body" then { a with mode := .afterBody } else a

/-- The blocks whose end tags have the plain rule. -/
def blockEnds : List String :=
  ["address", "article", "aside", "blockquote", "button", "center", "details", "dialog", "dir", "div", "dl", "fieldset",
    "figcaption", "figure", "footer", "header", "hgroup", "listing", "main", "menu", "nav", "ol", "pre", "section",
    "summary", "ul"]

def formattingNames : List String :=
  ["a", "b", "big", "code", "em", "font", "i", "nobr", "s", "small", "strike", "strong", "tt", "u"]

/-- Embedded objects, whose contents are kept apart. -/
def embeddedNames : List String := ["applet", "marquee", "object"]

def endInBody (a : Assembly) (name : String) : Reply :=
  if name == "body" then .done a.endBody
  else if name == "html" then
    if a.inScope .ordinary "body" then .again a.endBody else .done a
  else if blockEnds.contains name then .done (a.endBlock name)
  else if name == "form" then .done a.endForm
  else if name == "p" then .done a.endParagraph
  else if ["dd", "dt", "li"].contains name then .done (a.endListItem name)
  else if headings.contains name then .done a.endHeading
  else if formattingNames.contains name then .done (a.endFormatting name)
  else if embeddedNames.contains name then .done (a.endEmbedded name)
  else if name == "br" then .done a.endLineBreak
  else .done (a.endOther name)

/-! ### In tables -/

def rowGroups : List String := ["tbody", "tfoot", "thead"]

def endTable (a : Assembly) : Assembly :=
  if a.inScope .table "table" then (a.close "table").resetMode else a

/-- An end tag that the body deals with, though the innermost element is a table. -/
def fosterEnd (a : Assembly) (name : String) : Assembly :=
  { ({ a with fostering := true }.endInBody name).assembly with fostering := false }

def endInTable (a : Assembly) (name : String) : Reply :=
  if name == "table" then .done a.endTable
  else if ["body", "caption", "col", "colgroup", "html", "tbody", "td", "tfoot", "th", "thead", "tr"].contains name then .done a
  else .done (a.fosterEnd name)

def inCaptionScope (a : Assembly) : Bool := a.inScope .table "caption"

def endCaption (a : Assembly) : Assembly :=
  if a.inCaptionScope then { (a.close "caption").clearToMarker with mode := .inTable } else a

def endInCaption (a : Assembly) (name : String) : Reply :=
  if name == "caption" then .done a.endCaption
  else if name == "table" then
    if a.inCaptionScope then .again a.endCaption else .done a
  else if ["body", "col", "colgroup", "html", "tbody", "td", "tfoot", "th", "thead", "tr"].contains name then .done a
  else a.endInBody name

def endColumnGroup (a : Assembly) : Assembly :=
  if a.currentName == "html" then a else { a.pop with mode := .inTable }

/-- Ends a group of columns for something that does not belong there, or drops that if the group is what a fragment is read in. -/
def leaveColumnGroup (a : Assembly) : Reply :=
  if a.currentName == "html" then .done a else .again a.endColumnGroup

def endInColumnGroup (a : Assembly) (name : String) : Reply :=
  if name == "colgroup" then .done a.endColumnGroup
  else if name == "col" then .done a
  else a.leaveColumnGroup

def inRowGroupScope (a : Assembly) : Bool :=
  rowGroups.any (a.inScope .table)

/-- Closes all inside a group of rows. -/
def clearToRowGroup (a : Assembly) : Assembly := a.popTo ("html" :: rowGroups)

def endRowGroup (a : Assembly) (name : String) : Assembly :=
  if a.inScope .table name then { a.clearToRowGroup.pop with mode := .inTable } else a

/-- Ends the open group of rows for something that does not belong there. -/
def leaveRowGroup (a : Assembly) : Reply :=
  if a.inRowGroupScope then
    let b := a.clearToRowGroup
    .again (b.endRowGroup b.currentName)
  else .done a

def endInTableBody (a : Assembly) (name : String) : Reply :=
  if rowGroups.contains name then .done (a.endRowGroup name)
  else if name == "table" then a.leaveRowGroup
  else if ["body", "caption", "col", "colgroup", "html", "td", "th", "tr"].contains name then .done a
  else a.endInTable name

def inRowScope (a : Assembly) : Bool := a.inScope .table "tr"

/-- Closes all inside a row. -/
def clearToRow (a : Assembly) : Assembly := a.popTo ["tr", "html"]

def endRow (a : Assembly) : Assembly :=
  if a.inRowScope then { a.clearToRow.pop with mode := .inTableBody } else a

/-- Ends the open row for something that does not belong there. -/
def leaveRow (a : Assembly) : Reply :=
  if a.inRowScope then .again a.endRow else .done a

def endInRow (a : Assembly) (name : String) : Reply :=
  if name == "tr" then .done a.endRow
  else if name == "table" then a.leaveRow
  else if rowGroups.contains name then
    if a.inScope .table name then .again a.endRow else .done a
  else if ["body", "caption", "col", "colgroup", "html", "td", "th"].contains name then .done a
  else a.endInTable name

def endCell (a : Assembly) (name : String) : Assembly :=
  if a.inScope .table name then { (a.close name (some name)).clearToMarker with mode := .inRow } else a

def closeCell (a : Assembly) : Assembly :=
  if a.inScope .table "td" then a.endCell "td"
  else if a.inScope .table "th" then a.endCell "th"
  else a

def endInCell (a : Assembly) (name : String) : Reply :=
  if name == "td" || name == "th" then .done (a.endCell name)
  else if ["body", "caption", "col", "colgroup", "html"].contains name then .done a
  else if tableFrames.contains name then
    if a.inScope .table name then .again a.closeCell else .done a
  else a.endInBody name

/-! ### In selections -/

def endSelect (a : Assembly) : Assembly :=
  if a.inScope .select "select" then (a.popThrough "select").resetMode else a

/-- The end of a group of options, which also ends an option in it. -/
def endOptionGroup (a : Assembly) : Assembly :=
  let b := match a.stack with
    | option :: group :: _ => if option.name == "option" && group.name == "optgroup" then a.pop else a
    | _ => a
  if b.currentName == "optgroup" then b.pop else b

def endInSelect (a : Assembly) (name : String) : Assembly :=
  if name == "option" then (if a.currentName == "option" then a.pop else a)
  else if name == "optgroup" then a.endOptionGroup
  else if name == "select" then a.endSelect
  else a

def selectEnders : List String := ["caption", "table", "tbody", "tfoot", "thead", "tr", "td", "th"]

def endInSelectInTable (a : Assembly) (name : String) : Reply :=
  if selectEnders.contains name then
    if a.inScope .table name then .again a.endSelect else .done a
  else .done (a.endInSelect name)

/-! ### Elsewhere -/

def endFrameset (a : Assembly) : Assembly :=
  let b := if a.currentName == "html" then a else a.pop
  if b.container.isNone && b.currentName != "frameset" then { b with mode := .afterFrameset } else b

/-- A document that has no document type follows the old rules. -/
def startWithoutDoctype (a : Assembly) : Assembly :=
  { a with oldRules := true, mode := .beforeHtml }

/-- An end tag by the rules of the current mode. -/
def endTag (a : Assembly) (name : String) : Reply :=
  match a.mode with
  | .initial => .again a.startWithoutDoctype
  | .beforeHtml => if ["head", "body", "html", "br"].contains name then .again a.insertRoot else .done a
  | .beforeHead => if ["head", "body", "html", "br"].contains name then .again a.insertHead else .done a
  | .inHead =>
      if name == "head" then .done a.leaveHead
      else if ["br", "html", "body"].contains name then .again a.leaveHead
      else .done a
  | .afterHead => if ["body", "html", "br"].contains name then .again a.insertBody else .done a
  | .inBody => a.endInBody name
  | .text => .done { a.pop with mode := a.textReturn }
  | .inTable => a.endInTable name
  | .inTableText => .again a.leaveTableText
  | .inCaption => a.endInCaption name
  | .inColumnGroup => a.endInColumnGroup name
  | .inTableBody => a.endInTableBody name
  | .inRow => a.endInRow name
  | .inCell => a.endInCell name
  | .inSelect => .done (a.endInSelect name)
  | .inSelectInTable => a.endInSelectInTable name
  | .afterBody =>
      if name == "html" then
        if a.container.isSome then .done a else .done { a with mode := .afterAfterBody }
      else .again { a with mode := .inBody }
  | .inFrameset => if name == "frameset" then .done a.endFrameset else .done a
  | .afterFrameset => if name == "html" then .done { a with mode := .afterAfterFrameset } else .done a
  | .afterAfterBody => .again { a with mode := .inBody }
  | .afterAfterFrameset => .done a

end HtmlLayout.Html.Assembly
