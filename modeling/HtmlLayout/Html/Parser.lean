import HtmlLayout.Html.Assembly.Token
import HtmlLayout.Html.Lexer.Step

/-!
# Reading markup

A parser is a lexer and an assembly that work hand in hand: each character moves the lexer, the
tokens it completes go into the assembly, and a start tag may change the way the lexer reads on.
Reading is a fold over the characters, so reading two texts in a row is reading their concatenation.

Line ends are made newlines before anything else is done.
-/

namespace HtmlLayout.Html

open Text

/-- A text with every kind of line end as a newline. -/
def unifyNewlines : List Char → List Char
  | [] => []
  | '\r' :: '\n' :: rest => '\n' :: unifyNewlines rest
  | '\r' :: rest => '\n' :: unifyNewlines rest
  | c :: rest => c :: unifyNewlines rest

/-- A parser between two characters. -/
structure Parser where
  state : Lexer.State := .text .data false
  assembly : Assembly := {}
  /-- The digits of a reference that was too long, which ends the parse. -/
  overlong : Option Nat := none
  deriving Inhabited

namespace Parser

def take (p : Parser) (token : Token) : Parser :=
  if p.overlong.isSome then p
  else
    match token with
    | .overlong digits => { p with overlong := some digits }
    | _ =>
        let a := p.assembly.take token
        match a.content with
        | some content => { p with assembly := { a with content := none }, state := .text content false }
        | none => { p with assembly := a }

def step (p : Parser) (c : Char) : Parser :=
  if p.overlong.isSome then p
  else
    let (state, tokens) := Lexer.step p.assembly.inForeign p.state c
    tokens.foldl take { p with state }

def feed (p : Parser) (text : List Char) : Parser :=
  text.foldl step p

def finish (p : Parser) : Parser :=
  let q := (Lexer.finish p.state).foldl take p
  if q.overlong.isSome then q else { q with assembly := q.assembly.finish }

def forDocument : Parser := {}

/-- How the text of a fragment is read, by the element it is read in. -/
def contentIn (container : String) : Lexer.Content :=
  if ["title", "textarea"].contains container then .rcdata none
  else if ["style", "script", "xmp", "iframe", "noembed", "noframes", "noscript"].contains container then .rawtext none
  else if container == "plaintext" then .plaintext
  else .data

/-- A parser at the start of a fragment that is read in an element. -/
def forFragment (container : String) : Parser :=
  let name := lower container
  { state := .text (contentIn name) false
    assembly := { ({} : Assembly) with container := some name }.insertRoot.resetMode }

def documentNodes (p : Parser) : List Dom :=
  Draft.toDoms p.assembly.nodes []

/-- The nodes inside the outermost element, which are those of a fragment. -/
def fragmentNodes (p : Parser) : List Dom :=
  match p.assembly.nodes with
  | .element _ children :: _ => Draft.toDoms children []
  | _ => []

end Parser

end HtmlLayout.Html
