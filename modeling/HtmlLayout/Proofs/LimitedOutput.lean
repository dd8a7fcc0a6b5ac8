import HtmlLayout.Proofs.Outline
import HtmlLayout.Session

/-!
# Outputs that fill up

An output may take a number of writes and fail from then on. Since every operation follows a script,
a limit cuts it at exactly the write that finds no room: what was written and noted before stays,
nothing is written after, and the failure of the output is the outcome. An operation for which there
is enough room does not feel the limit at all.

A session therefore needs no memory of the steps before: each of them does what it would do alone on
an empty output with the room that is left.
-/

namespace HtmlLayout

namespace Step

/-- The script of a step. A step that sets the room does nothing to the output. -/
def script (style : Style) (calls : Nat) : Step → Script Unit
  | write text => { actions := [.write text], ending := .ok () }
  | node root => style.nodeScript calls root
  | document root => (style.nodeScript calls root).andThen fun _ => Style.newlineScript
  | fragment nodes => (style.nodesScript calls nodes).andThen fun _ => Style.newlineScript
  | limit _ => .ended (.ok ())

end Step

end HtmlLayout
