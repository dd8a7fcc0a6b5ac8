import HtmlLayout.Html.Assembly.StartTag

/-!
# Tokens into the tree

Each token is dealt with by the rules of the current mode, or by the rules of foreign content when
the innermost element is foreign and the token is none that it leaves to markup. A rule may ask for
the token to be looked at again in the state it leads to. It does so only after it has changed the
mode or closed something, so looking a few times more often than elements are open is enough.
-/

namespace HtmlLayout.Html.Assembly

/-! ### Text and comments by mode -/

def holdBack (a : Assembly) (c : Char) : Assembly :=
  if c == '\x00' then a else { a with pending := a.pending.push c }

def enterTableText (a : Assembly) (c : Char) : Assembly :=
  { a with mode := .inTableText, tableReturn := a.mode }.holdBack c

/-- A character of text by the rules of the current mode. -/
def character (a : Assembly) (c : Char) : Reply :=
  match a.mode with
  | .initial => .again a.startWithoutDoctype
  | .beforeHtml => .again a.insertRoot
  | .beforeHead => .again a.insertHead
  | .inHead => .again a.leaveHead
  | .afterHead => .again a.insertBody
  | .inBody | .inCaption | .inCell => .done (a.bodyText (String.singleton c))
  | .text => .done (a.insertText (String.singleton c))
  | .inTable | .inTableBody | .inRow => .done (a.enterTableText c)
  | .inTableText => .done (a.holdBack c)
  | .inColumnGroup => a.leaveColumnGroup
  | .inSelect | .inSelectInTable => .done (if c == '\x00' then a else a.insertText (String.singleton c))
  | .afterBody | .afterAfterBody => .again { a with mode := .inBody }
  | .inFrameset | .afterFrameset | .afterAfterFrameset => .done a

def space (a : Assembly) (c : Char) : Assembly :=
  match a.mode with
  | .initial | .beforeHtml | .beforeHead => a
  | .inBody | .afterAfterBody | .afterAfterFrameset => a.bodySpace c
  | .inTable | .inTableBody | .inRow => a.enterTableText c
  | .inTableText => a.holdBack c
  | _ => a.insertText (String.singleton c)

def comment (a : Assembly) (data : String) : Reply :=
  match a.mode with
  | .initial | .beforeHtml | .afterAfterBody | .afterAfterFrameset => .done (a.appendToDocument (.comment data))
  | .afterBody => .done (a.appendToRoot (.comment data))
  | .inTableText => .again a.leaveTableText
  | _ => .done (a.insertComment data)

/-! ### Document types -/

def oldPublicStarts : List String :=
  ["+//silmaril//dtd html pro v0r11 19970101//", "-//advasoft ltd//dtd html 3.0 aswedit + extensions//",
    "-//as//dtd html 3.0 aswedit + extensions//", "-//ietf//dtd html 2.0 level 1//", "-//ietf//dtd html 2.0 level 2//",
    "-//ietf//dtd html 2.0 strict level 1//", "-//ietf//dtd html 2.0 strict level 2//", "-//ietf//dtd html 2.0 strict//",
    "-//ietf//dtd html 2.0//", "-//ietf//dtd html 2.1e//", "-//ietf//dtd html 3.0//", "-//ietf//dtd html 3.2 final//",
    "-//ietf//dtd html 3.2//", "-//ietf//dtd html 3//", "-//ietf//dtd html level 0//", "-//ietf//dtd html level 1//",
    "-//ietf//dtd html level 2//", "-//ietf//dtd html level 3//", "-//ietf//dtd html strict level 0//",
    "-//ietf//dtd html strict level 1//", "-//ietf//dtd html strict level 2//", "-//ietf//dtd html strict level 3//",
    "-//ietf//dtd html strict//", "-//ietf//dtd html//", "-//metrius//dtd metrius presentational//",
    "-//microsoft//dtd internet explorer 2.0 html strict//", "-//microsoft//dtd internet explorer 2.0 html//",
    "-//microsoft//dtd internet explorer 2.0 tables//", "-//microsoft//dtd internet explorer 3.0 html strict//",
    "-//microsoft//dtd internet explorer 3.0 html//", "-//microsoft//dtd internet explorer 3.0 tables//",
    "-//netscape comm. corp.//dtd html//", "-//netscape comm. corp.//dtd strict html//",
    "-//o'reilly and associates//dtd html 2.0//", "-//o'reilly and associates//dtd html extended 1.0//",
    "-//o'reilly and associates//dtd html extended relaxed 1.0//",
    "-//softquad software//dtd hotmetal pro 6.0::19990601::extensions to html 4.0//",
    "-//softquad//dtd hotmetal pro 4.0::19971010::extensions to html 4.0//", "-//spyglass//dtd html 2.0 extended//",
    "-//sq//dtd html 2.0 hotmetal + extensions//", "-//sun microsystems corp.//dtd hotjava html//",
    "-//sun microsystems corp.//dtd hotjava strict html//", "-//w3c//dtd html 3 1995-03-24//",
    "-//w3c//dtd html 3.2 draft//", "-//w3c//dtd html 3.2 final//", "-//w3c//dtd html 3.2//",
    "-//w3c//dtd html 3.2s draft//", "-//w3c//dtd html 4.0 frameset//", "-//w3c//dtd html 4.0 transitional//",
    "-//w3c//dtd html experimental 19960712//", "-//w3c//dtd html experimental 970421//", "-//w3c//dtd w3 html//",
    "-//w3o//dtd w3 html 3.0//", "-//webtechs//dtd mozilla html 2.0//", "-//webtechs//dtd mozilla html//"]

def oldPublicIds : List String :=
  ["-//w3o//dtd w3 html strict 3.0//en//", "-/w3c/dtd html 4.0 transitional/en", "html"]

/-- Starts of public identifiers that ask for old rules when no system identifier follows. -/
def oldPublicStartsAlone : List String :=
  ["-//w3c//dtd html 4.01 frameset//", "-//w3c//dtd html 4.01 transitional//"]

def oldSystemId : String := "http://www.ibm.com/data/dtd/v11/ibmxhtml1-transitional.dtd"

def asksForOldRules (name : String) (publicId systemId : Option String) (correct : Bool) : Bool :=
  let pub := Text.lower (publicId.getD "")
  !correct || name != "html" || oldPublicStarts.any (Text.startsWith pub) || oldPublicIds.contains pub
    || (oldPublicStartsAlone.any (Text.startsWith pub) && systemId.isNone)
    || systemId.any fun id => Text.lower id == oldSystemId

/-- A document type, which counts only at the very start. -/
def doctype (a : Assembly) (name : String) (publicId systemId : Option String) (correct : Bool) : Assembly :=
  match a.mode with
  | .initial =>
      { a.appendToDocument (.doctype name publicId systemId) with
        oldRules := asksForOldRules name publicId systemId correct
        mode := .beforeHtml }
  | _ => a

/-! ### Foreign content -/

/-- Whether the innermost element is foreign. -/
def inForeign (a : Assembly) : Bool :=
  match a.stack with
  | [] => false
  | label :: _ => !label.kind.isHtml

/-- Whether the content of an element is markup. An annotation says so by its encoding. -/
def holdsMarkup (label : Label) : Bool :=
  if label.kind == ⟨.mathml, "annotation-xml"⟩ then
    label.attrs.any fun attr =>
      attr.name == "encoding" && ["text/html", "application/xhtml+xml"].contains (Text.lower attr.value)
  else label.kind.isMarkupPoint

/-- Whether a foreign element leaves a token to markup. -/
def yields (label : Label) : Token → Bool
  | .startTag tag =>
      (label.kind.isTextPoint && tag.name != "mglyph" && tag.name != "malignmark")
        || (label.kind == ⟨.mathml, "annotation-xml"⟩ && tag.name == "svg") || holdsMarkup label
  | .char _ => label.kind.isTextPoint || holdsMarkup label
  | .space _ => label.kind.isTextPoint || holdsMarkup label
  | _ => false

def isForeignToken (a : Assembly) (token : Token) : Bool :=
  match a.stack with
  | [] => false
  | label :: _ => !label.kind.isHtml && !yields label token

def breaksOut (tag : StartTag) : Bool :=
  breakouts.contains tag.name
    || (tag.name == "font" && tag.attrs.any fun entry => ["color", "face", "size"].contains entry.1)

/-- Closes foreign elements until markup is possible. -/
def leaveForeign (a : Assembly) : Assembly :=
  { a with stack := a.stack.dropWhile fun label =>
      !label.kind.isHtml && !holdsMarkup label && !label.kind.isTextPoint }

def startInForeign (a : Assembly) (tag : StartTag) : Reply :=
  if breaksOut tag then .again a.leaveForeign
  else
    match a.stack with
    | [] => .done a
    | label :: _ => .done (a.insertForeign label.kind.vocabulary tag)

/-- The foreign element that an end tag closes: one of those open inside the innermost element of markup. -/
def foreignTarget? (a : Assembly) (name : String) : Option Label :=
  (a.stack.takeWhile fun label => !label.kind.isHtml).find? fun label => Text.lower label.name == name

def endInForeign (a : Assembly) (name : String) : Reply :=
  match a.foreignTarget? name with
  | some label =>
      let b := if a.mode == .inTableText then a.leaveTableText else a
      .done (b.popThroughId label.id)
  | none => a.endTag name

def foreignText (a : Assembly) (c : Char) : Assembly :=
  if c == '\x00' then a.insertText "\ufffd"
  else
    let put := a.insertText (String.singleton c)
    if Text.isMarkupSpace c then put else { put with framesetOk := false }

/-! ### All tokens -/

def reactForeign (a : Assembly) : Token → Reply
  | .startTag tag => a.startInForeign tag
  | .endTag name => a.endInForeign name
  | .comment data => .done (a.insertComment data)
  | .char c => .done (a.foreignText c)
  | .space c => .done (a.insertText (String.singleton c))
  | .doctype .. => .done a
  | .overlong _ => .done a

def reactMode (a : Assembly) : Token → Reply
  | .startTag tag => a.startTag tag
  | .endTag name => a.endTag name
  | .comment data => a.comment data
  | .char c => a.character c
  | .space c => .done (a.space c)
  | .doctype name publicId systemId correct => .done (a.doctype name publicId systemId correct)
  | .overlong _ => .done a

def react (a : Assembly) (token : Token) : Reply :=
  if a.isForeignToken token then a.reactForeign token else a.reactMode token

/-- Looks at a token until it is done with, at most so many times. -/
def settle (tries : Nat) (a : Assembly) (token : Token) : Assembly :=
  match tries with
  | 0 => a
  | tries + 1 =>
      match a.react token with
      | .done b => b
      | .again b => settle tries b token

def take (a : Assembly) (token : Token) : Assembly :=
  settle (2 * a.stack.length + 32) a token

/-! ### The end -/

/-- The end of the input by the rules of the current mode. -/
def reactEnd (a : Assembly) : Reply :=
  match a.mode with
  | .initial => .again a.startWithoutDoctype
  | .beforeHtml => .again a.insertRoot
  | .beforeHead => .again a.insertHead
  | .inHead => .again a.leaveHead
  | .afterHead => .again a.insertBody
  | .text => .again { a.pop with mode := a.textReturn }
  | .inTableText => .again a.leaveTableText
  | .inColumnGroup => a.leaveColumnGroup
  | _ => .done a

/-- Looks at the end of the input until it is done with, at most so many times. -/
def settleEnd (tries : Nat) (a : Assembly) : Assembly :=
  match tries with
  | 0 => a
  | tries + 1 =>
      match a.reactEnd with
      | .done b => b
      | .again b => settleEnd tries b

def finish (a : Assembly) : Assembly := settleEnd 16 a

end HtmlLayout.Html.Assembly
