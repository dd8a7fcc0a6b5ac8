import HtmlLayout.Layout
import HtmlLayout.Text.Builder

/-!
# Writing trees

The operations that write a tree to an output. Each starts at depth zero with the number of calls
that may be open inside each other, and notes a record when a `plaintext` element ended the markup. A
document is followed by a newline, and so are the nodes of a fragment, which are written one by one:
a `plaintext` element in one of them does not stop the next.
-/

namespace HtmlLayout

def renderingPart : String := "htmlindent.renderer"

/-- The record of a walk that a `plaintext` element ended. -/
def stopMessage : String := "plaintext element reached, rendering stopped"

namespace Style

/-- Notes the end of the markup if a walk was stopped. -/
def settle : Flow → Run Unit
  | .stop => note .debug renderingPart stopMessage
  | .proceed => pure ()

def writeNode (style : Style) (calls : Nat) (node : Node) : Run Unit :=
  node.render style calls 0 >>= settle

/-- Writes a document and a newline. -/
def writeDocument (style : Style) (calls : Nat) (root : Node) : Run Unit := do
  style.writeNode calls root
  write "\n"

def writeNodes (style : Style) (calls : Nat) : List Node → Run Unit
  | [] => pure ()
  | node :: rest => do
      style.writeNode calls node
      style.writeNodes calls rest

/-- Writes the nodes of a fragment and a newline. -/
def writeFragment (style : Style) (calls : Nat) (nodes : List Node) : Run Unit := do
  style.writeNodes calls nodes
  write "\n"

end Style

namespace Run

/-- Runs an operation on a fresh output without a limit, and gives what was written as one text. -/
def toText (operation : Run Unit) : Except Failure String × Array Record :=
  let (result, channel) := operation.run.run {}
  (result.map fun _ => (Text.Builder.takeAll {} channel.writes.toList).build, channel.records)

end Run

namespace Node

def toText (node : Node) (calls : Nat) (style : Style) : Except Failure String × Array Record :=
  Run.toText (style.writeNode calls node)

end Node

end HtmlLayout
