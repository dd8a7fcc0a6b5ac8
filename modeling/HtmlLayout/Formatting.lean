import HtmlLayout.Options
import HtmlLayout.Rendering
import HtmlLayout.Source

/-!
# Formatting

To format a source is to parse it and to write the tree. The ways to do so differ in where the
result goes: to an output, into a text, or into bytes.
-/

namespace HtmlLayout

def version : String := "0.1.0"

namespace Source

def formatDocument (source : Source) (calls : Nat) (style : Style) (sourceName : Option String := none) : Run Unit := do
  let nodes ← source.parse calls .document sourceName
  style.writeDocument calls (.document nodes)

def formatFragment (source : Source) (calls : Nat) (style : Style) (container : String := defaultContainer)
    (sourceName : Option String := none) : Run Unit := do
  let nodes ← source.parse calls (.fragment container) sourceName
  style.writeFragment calls nodes

def formatAs (source : Source) (calls : Nat) (format : Format) (sourceName : Option String := none) : Run Unit :=
  if format.fragment then source.formatFragment calls format.style format.container sourceName
  else source.formatDocument calls format.style sourceName

def formatText (source : Source) (calls : Nat) (format : Format) : Except Failure String × Array Record :=
  Run.toText (source.formatAs calls format)

/-- Formats a document given as bytes into bytes. -/
def formatBytes (bytes : List UInt8) (calls : Nat) (style : Style) : Except Failure (List UInt8) × Array Record :=
  let (result, records) := formatText (.bytes bytes) calls { style }
  (result.map fun written => written.toUTF8.data.toList, records)

/-- Formats a text again and again, and gives the result of every round. -/
def formatRounds (calls : Nat) (format : Format) : Nat → String → Except Failure (List String)
  | 0, _ => .ok []
  | rounds + 1, data => do
      let next ← (formatText (.text data) calls format).1
      let others ← formatRounds calls format rounds next
      return next :: others

end Source

end HtmlLayout
