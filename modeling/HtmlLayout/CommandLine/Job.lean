import HtmlLayout.Formatting

/-!
# The job of the command

The command formats all it reads from its input, writes the result to its output, and flushes the
output at the end. An input that cannot be read ends the job before anything is written or noted.
-/

namespace HtmlLayout.CommandLine

/-- The part that notes records about the command, unless it is started by another name. -/
def commandPart : String := "htmlindent.cli"

def inputName : String := "<stdin>"

/-- What the input holds. An input that cannot be read says why. -/
abbrev Input := Except String (List UInt8)

def readInput (input : Input) : Run (List UInt8) :=
  match input with
  | .error words => throw (.reader { trouble := .device, text := words })
  | .ok bytes => pure bytes

/-- Formats the input. A fragment is announced. -/
def job (part : String) (calls : Nat) (format : Format) (input : Input) : Run Unit := do
  let bytes ← readInput input
  if format.fragment then
    note .info part "parsing fragment"
    let nodes ← Source.parse (.bytes bytes) calls (.fragment format.container) (some inputName)
    format.style.writeFragment calls nodes
  else
    let nodes ← Source.parse (.bytes bytes) calls .document (some inputName)
    format.style.writeDocument calls (.document nodes)
  flush

end HtmlLayout.CommandLine
