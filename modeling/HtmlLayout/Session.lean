import HtmlLayout.Rendering

/-!
# Sessions

A session is a series of steps with one style on one output. A step that fails ends nothing: the
next one goes on with the output as the failed one left it. What a step reports is its result, the
records it noted, and the text that reached the output in it.
-/

namespace HtmlLayout

/-- A step of a session. -/
inductive Step where
  | write (text : String)
  | node (node : Node)
  | document (root : Node)
  | fragment (nodes : List Node)
  /-- From now on the output has room for `more` writes, or for any number. -/
  | limit (more : Option Nat)
  deriving Inhabited

/-- What a step of a session did. -/
structure StepReport where
  result : Except Failure Unit
  records : Array Record
  written : String

namespace Step

def operation (style : Style) (calls : Nat) : Step → Run Unit
  | write text => HtmlLayout.write text
  | node root => style.writeNode calls root
  | document root => style.writeDocument calls root
  | fragment nodes => style.writeFragment calls nodes
  | limit more => fun channel => (.ok (), { channel with room := more })

def take (style : Style) (calls : Nat) (channel : Channel) (step : Step) : StepReport × Channel :=
  let (result, after) := (step.operation style calls).run.run { channel with records := #[] }
  ({ result, records := after.records
     written := String.join (after.writes.toList.drop channel.writes.size) }, after)

def takeAll (style : Style) (calls : Nat) (channel : Channel) : List Step → List StepReport × Channel
  | [] => ([], channel)
  | step :: rest =>
      let (report, after) := step.take style calls channel
      let (reports, last) := takeAll style calls after rest
      (report :: reports, last)

end Step

end HtmlLayout
