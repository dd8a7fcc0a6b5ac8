import HtmlLayout.Html.Assembly.Formatting

/-!
# Text in the body and in tables

Text in the body first opens the formatting elements that are due. A newline right after the start
tag of a preformatted element is dropped; it must be the first blank after the tag and the element
must still be empty.

Text between the parts of a table is held back until it is complete: if it is all blanks it stays
where it is, and otherwise it is put before the table.
-/

namespace HtmlLayout.Html.Assembly

/-- Text of the body that is not to be looked at closer. -/
def putText (a : Assembly) (data : String) : Assembly :=
  a.reconstruct.insertText data

/-- A text of the body. A null on its own is dropped, and anything but blanks settles that there is a body. -/
def bodyText (a : Assembly) (data : String) : Assembly :=
  if data == "\x00" then a
  else
    let put := a.putText data
    if data.toList.all Text.isMarkupSpace then put else { put with framesetOk := false }

/-- Whether the innermost element is preformatted and empty. -/
def atPreformattedStart (a : Assembly) : Bool :=
  match a.stack with
  | [] => false
  | label :: _ =>
      ["pre", "listing", "textarea"].contains label.name
        && ((Draft.childrenOfAll? label.id a.nodes).getD []).isEmpty

def bodySpace (a : Assembly) (c : Char) : Assembly :=
  if a.dropNewline && c == '\n' && a.atPreformattedStart then { a with dropNewline := false }
  else { a with dropNewline := false }.putText (String.singleton c)

/-- Puts the text held back in a table into its place. -/
def flushTable (a : Assembly) : Assembly :=
  let data := a.pending
  let b := { a with pending := "" }
  if data == "" then b
  else if data.toList.all Text.isMarkupSpace then b.insertText data
  else { ({ b with fostering := true }).bodyText data with fostering := false }

def leaveTableText (a : Assembly) : Assembly :=
  { a.flushTable with mode := a.tableReturn }

end HtmlLayout.Html.Assembly
