/-!
# Replacing a pattern throughout a text

A replacement looks for its pattern from left to right and takes the first occurrence it meets, so
two occurrences that overlap count once. Text that has been put in is never looked at again.
-/

namespace HtmlLayout.Text

/-- The walk behind `replaceAll`. The counter is the number of characters of the last occurrence that are still to be passed over. -/
def replaceFrom (pattern replacement : List Char) : Nat → List Char → List Char
  | _, [] => []
  | skip + 1, _ :: rest => replaceFrom pattern replacement skip rest
  | 0, c :: rest =>
      if pattern.isPrefixOf (c :: rest) then
        replacement ++ replaceFrom pattern replacement (pattern.length - 1) rest
      else
        c :: replaceFrom pattern replacement 0 rest

/-- Every leftmost occurrence of `pattern` becomes `replacement`. -/
def replaceAll (pattern replacement : String) (text : List Char) : List Char :=
  replaceFrom pattern.toList replacement.toList 0 text

end HtmlLayout.Text
