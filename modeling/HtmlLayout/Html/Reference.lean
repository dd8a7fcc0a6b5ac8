import HtmlLayout.Html.Reference.Names
import HtmlLayout.Text.Ascii

/-!
# Character references

An ampersand may start a reference: a number, decimal or hexadecimal, or a name. Names are matched
as long as some known name goes on with the characters that come, and the longest name that was
complete on the way wins; what was read beyond it stays text. What is no reference at all stays
text too.

A reference is read one character at a time. The state holds what has been read since the
ampersand, and for a name also the names that may still come of it.
-/

namespace HtmlLayout.Html

/-- A name that may still be completed. -/
structure Candidate where
  /-- The letters of the name that are still to come. -/
  rest : List Char
  /-- What the name stands for. -/
  text : String
  /-- Whether the name is understood without a semicolon. -/
  bare : Bool
  deriving Inhabited

/-- A reference of which the ampersand has been read. -/
inductive Reference where
  | opened
  /-- After letters of a name: the letters, the names that may still come, and the text of the longest complete name with the letters read since. -/
  | name (seen : String) (candidates : List Candidate) (best : Option (String × String))
  /-- After the number sign. -/
  | hash
  /-- After the number sign and the letter for hexadecimal. -/
  | hexMark (mark : Char)
  /-- After digits: the value, kept below a bound no character reaches, and how many digits there were. -/
  | number (hex : Bool) (value : Nat) (digits : Nat)
  deriving Inhabited

namespace Reference

/-- What a character does to a reference. -/
inductive Progress where
  | more (reference : Reference)
  /-- The reference is over and stands for `text`; `used` tells whether the character belonged to it. -/
  | done (text : String) (used : Bool)
  /-- A decimal number with more digits than are read. -/
  | overlong (digits : Nat)
  deriving Inhabited

/-- The most digits a decimal number may have. -/
def maxDigits : Nat := 4300

def starting (c : Char) : List Candidate :=
  (named c).map fun (full, text) => { rest := full.toList.drop 1, text, bare := unterminated.contains full }

def following (c : Char) (candidates : List Candidate) : List Candidate :=
  candidates.filterMap fun candidate =>
    match candidate.rest with
    | next :: rest => if next == c then some { candidate with rest } else none
    | [] => none

def complete? (candidates : List Candidate) : Option String :=
  (candidates.find? fun candidate => candidate.rest.isEmpty).map Candidate.text

/-- The text of a complete name that needs no semicolon. -/
def bareComplete? (candidates : List Candidate) : Option String :=
  (candidates.find? fun candidate => candidate.bare && candidate.rest.isEmpty).map Candidate.text

/-- The replacement for a null and for the control codes that one old encoding uses for letters and signs. -/
def replaced : Nat → Option Nat
  | 0x00 => some 0xFFFD
  | 0x80 => some 0x20AC
  | 0x82 => some 0x201A
  | 0x83 => some 0x0192
  | 0x84 => some 0x201E
  | 0x85 => some 0x2026
  | 0x86 => some 0x2020
  | 0x87 => some 0x2021
  | 0x88 => some 0x02C6
  | 0x89 => some 0x2030
  | 0x8A => some 0x0160
  | 0x8B => some 0x2039
  | 0x8C => some 0x0152
  | 0x8E => some 0x017D
  | 0x91 => some 0x2018
  | 0x92 => some 0x2019
  | 0x93 => some 0x201C
  | 0x94 => some 0x201D
  | 0x95 => some 0x2022
  | 0x96 => some 0x2013
  | 0x97 => some 0x2014
  | 0x98 => some 0x02DC
  | 0x99 => some 0x2122
  | 0x9A => some 0x0161
  | 0x9B => some 0x203A
  | 0x9C => some 0x0153
  | 0x9E => some 0x017E
  | 0x9F => some 0x0178
  | _ => none

/-- The character a number stands for. Numbers that are no characters stand for the replacement character. -/
def charOf (value : Nat) : Char :=
  let n := (replaced value).getD value
  if n.isValidChar then Char.ofNat n else '\ufffd'

/-- A number that is over. -/
def settleNumber (hex : Bool) (value digits : Nat) (used : Bool) : Progress :=
  if !hex && maxDigits < digits then .overlong digits
  else .done (String.singleton (charOf value)) used

/-- Whether a character keeps a name without a semicolon from being a reference inside a value. -/
def extendsName (c : Char) : Bool :=
  Text.isLetter c || Text.isDigit c || c == '='

/-- The text of a name that cannot be completed further, given the character that comes next. In an attribute value a name without a semicolon is text if it runs on. -/
def settleName (inValue : Bool) (seen : String) (best : Option (String × String)) (next : Option Char) : String :=
  match best with
  | none => "&" ++ seen
  | some (text, since) =>
      let after := (since.toList ++ next.toList).head?
      if inValue && after.any extendsName then "&" ++ seen else text ++ since

/-- The state after letters of a name, or the end of the reference if no name goes on like this. -/
def advance (inValue : Bool) (seen : String) (candidates : List Candidate) (best : Option (String × String)) (c : Char) : Progress :=
  if candidates.isEmpty then .done (settleName inValue seen best (some c)) false
  else
    .more (.name (seen.push c) candidates
      (match bareComplete? candidates with
      | some text => some (text, "")
      | none => best.map fun (text, since) => (text, since.push c)))

def addDigit (radix value : Nat) (c : Char) : Nat :=
  min (value * radix + Text.digitValue c) 0x110000

def step (inValue : Bool) : Reference → Char → Progress
  | opened, c => if c == '#' then .more hash else advance inValue "" (starting c) none c
  | name seen candidates best, c =>
      match if c == ';' then complete? candidates else none with
      | some text => .done text true
      | none => advance inValue seen (following c candidates) best c
  | hash, c =>
      if c == 'x' || c == 'X' then .more (hexMark c)
      else if Text.isDigit c then .more (number false (addDigit 10 0 c) 1)
      else .done "&#" false
  | hexMark mark, c =>
      if Text.isHexDigit c then .more (number true (addDigit 16 0 c) 1)
      else .done ("&#" ++ String.singleton mark) false
  | number hex value digits, c =>
      if (if hex then Text.isHexDigit c else Text.isDigit c) then
        .more (number hex (addDigit (if hex then 16 else 10) value c) (digits + 1))
      else settleNumber hex value digits (c == ';')

/-- What a reference stands for that the end of the input cuts off. -/
def finish (inValue : Bool) : Reference → Progress
  | opened => .done "&" false
  | name seen _ best => .done (settleName inValue seen best none) false
  | hash => .done "&#" false
  | hexMark mark => .done ("&#" ++ String.singleton mark) false
  | number hex value digits => settleNumber hex value digits false

end Reference

end HtmlLayout.Html
