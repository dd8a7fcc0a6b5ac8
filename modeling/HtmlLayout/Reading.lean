import HtmlLayout.Channel
import HtmlLayout.Dom.Convert
import HtmlLayout.Text.Literal

/-!
# From a reader's answer to nodes

A reader answers with the children of a document or of a fragment, or with trouble. Trouble with the
source becomes a parse error that names the source and keeps the cause; trouble of the machine is
passed on. A document tree is put in normal form and converted. The normal form is made by a walk that
opens a call for each element it goes into, and the conversion by a loop that opens none.
-/

namespace HtmlLayout

def parsingPart : String := "htmlindent.parser"

/-- What is read: a whole document, or a fragment in a containing element. -/
inductive Target where
  | document
  | fragment (container : String)
  deriving DecidableEq, Repr, Inhabited

namespace Target

def name : Target → String
  | document => "document"
  | fragment _ => "fragment"

def report (target : Target) (count : Nat) : String :=
  let counted := ": " ++ toString count ++ " top-level nodes"
  match target with
  | document => "parsed document" ++ counted
  | fragment container => "parsed fragment in <" ++ container ++ ">" ++ counted

end Target

namespace ReadTrouble

/-- Whether trouble concerns the source, and not the machine. -/
def isOfSource : ReadTrouble → Bool
  | value | lookup | key | index => true
  | device | internal => false

end ReadTrouble

/-- What trouble of the reader says. A key that was not found is shown as a literal. -/
def ReadFault.words (fault : ReadFault) : String :=
  match fault.trouble with
  | .key => Text.literal fault.text
  | _ => fault.text

/-- The failure that trouble of the reader leads to. -/
def ReadFault.failure (fault : ReadFault) (target : Target) (sourceName : Option String) : Failure :=
  if fault.trouble.isOfSource then
    .parse { detail := "cannot parse " ++ target.name ++ ": " ++ fault.words, sourceName, cause := some fault.trouble }
  else
    .reader fault

def adapt (calls : Nat) (target : Target) (sourceName : Option String) (answer : Except ReadFault (List Dom)) :
    Run (List Node) :=
  match answer with
  | .error fault => throw (fault.failure target sourceName)
  | .ok siblings =>
      if calls < Dom.nestingAll siblings then throw .tooDeep
      else
        match Dom.toNodes (Dom.normalizeAll siblings) with
        | .error kind =>
            throw (.parse { detail := "unsupported DOM node type " ++ toString kind, sourceName })
        | .ok nodes => do
            note .debug parsingPart (target.report nodes.length)
            return nodes

end HtmlLayout
