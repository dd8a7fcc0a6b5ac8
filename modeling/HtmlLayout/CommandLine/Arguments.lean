import HtmlLayout.Options
import HtmlLayout.Text.Digit
import HtmlLayout.Text.Literal

/-!
# Arguments of the command

The command knows five options, each with a short and a long name. A long name may be cut off as
long as one option is meant. The value of an option is glued to it, after an equals sign with a
long name, or is the next argument, unless that looks like an option itself. Short options without
a value may be put together.

All arguments are looked at once before any takes effect, so an ambiguous name is reported before
anything else. Then they take effect in order, and what is no option is kept to be complained about
in the end.
-/

namespace HtmlLayout.CommandLine

/-- The options of the command. -/
inductive Switch where
  | help
  | fragment
  | margin
  | indent
  | verbose
  deriving DecidableEq, Repr, Inhabited

namespace Switch

def all : List Switch := [help, fragment, margin, indent, verbose]

def letter : Switch → Char
  | help => 'h'
  | fragment => 'f'
  | margin => 'p'
  | indent => 'i'
  | verbose => 'v'

def short (switch : Switch) : String := String.ofList ['-', switch.letter]

def long : Switch → String
  | help => "--help"
  | fragment => "--fragment"
  | margin => "--prefix"
  | indent => "--indent"
  | verbose => "--verbose"

/-- Both names of an option, as messages show them. -/
def names (switch : Switch) : String := switch.short ++ "/" ++ switch.long

def takesValue : Switch → Bool
  | margin => true
  | indent => true
  | _ => false

def ofLetter? (c : Char) : Option Switch := all.find? (·.letter == c)

/-- The option of a name, with whether it is the long one. -/
def ofName? (name : String) : Option (Switch × Bool) :=
  match all.find? (·.short == name) with
  | some switch => some (switch, false)
  | none => (all.find? (·.long == name)).map fun switch => (switch, true)

end Switch

/-- How the reading of arguments can end early. -/
inductive Stop where
  /-- The help is asked for. -/
  | help
  /-- The arguments are at fault. -/
  | usage (problem : String)
  deriving DecidableEq, Repr, Inhabited

def Switch.fault (switch : Switch) (problem : String) : Stop :=
  .usage ("argument " ++ switch.names ++ ": " ++ problem)

/-- What an argument looks like. -/
inductive Word where
  /-- An option, by its long name or not, with what is glued to it. -/
  | option (switch : Switch) (isLong : Bool) (glued : Option (List Char))
  /-- Something that looks like an option and is none. -/
  | unknown
  /-- Anything else. -/
  | plain
  /-- The mark after which nothing is an option. -/
  | separator
  deriving DecidableEq, Repr, Inhabited

/-- Whether what follows a dash is a number: digits, or a point with digits after it and perhaps before. A newline at the end does not count. -/
def isNumber (text : List Char) : Bool :=
  let body := if text.getLast? == some '\n' then text.dropLast else text
  let after := body.dropWhile Text.isAnyDigit
  match after with
  | [] => !body.isEmpty
  | c :: rest => c == '.' && !rest.isEmpty && rest.all Text.isAnyDigit

def longMatches (name : List Char) : List Switch :=
  Switch.all.filter fun switch => name.isPrefixOf switch.long.toList

/-- What an argument that is no known option looks like. -/
def looksLike (text : List Char) : Word :=
  if isNumber (text.drop 1) || text.contains ' ' then .plain else .unknown

/-- What an argument that starts with two dashes looks like. -/
def classifyLong (argument : String) : Except Stop Word :=
  let text := argument.toList
  let name := text.takeWhile (· != '=')
  let glued := match text.dropWhile (· != '=') with
    | [] => none
    | _ :: value => some value
  match longMatches name with
  | [] => .ok (looksLike text)
  | [switch] => .ok (.option switch true glued)
  | several =>
      .error (.usage ("ambiguous option: " ++ argument ++ " could match "
        ++ String.intercalate ", " (several.map Switch.long)))

/-- What an argument that starts with one dash looks like. -/
def classifyShort (text : List Char) : Word :=
  match text with
  | _ :: c :: glued =>
      match Switch.ofLetter? c with
      | some switch => .option switch false (some glued)
      | none => looksLike text
  | _ => .plain

/-- The option of an argument up to its equals sign, with the value after that. -/
def withValue? (text : List Char) : Option Word :=
  match text.dropWhile (· != '=') with
  | [] => none
  | _ :: value =>
      (Switch.ofName? (String.ofList (text.takeWhile (· != '=')))).map fun (switch, isLong) =>
        .option switch isLong (some value)

def classify (argument : String) : Except Stop Word :=
  let text := argument.toList
  match text with
  | '-' :: second :: _ =>
      match Switch.ofName? argument with
      | some (switch, isLong) => .ok (.option switch isLong none)
      | none =>
          match withValue? text with
          | some word => .ok word
          | none => if second == '-' then classifyLong argument else .ok (classifyShort text)
  | _ => .ok .plain

def classifyAll : List String → Except Stop (List (String × Word))
  | [] => .ok []
  | argument :: rest =>
      if argument == "--" then .ok ((argument, .separator) :: rest.map fun other => (other, .plain))
      else do
        let word ← classify argument
        let others ← classifyAll rest
        return (argument, word) :: others

/-- The values that the arguments give. -/
structure Arguments where
  margin : Setting := .text ""
  indent : Setting := .text ""
  fragment : Bool := false
  verbose : Bool := false
  deriving Inhabited

/-- The value of an option. Two dashes count as no value at all. -/
def settingOf (value : String) : Setting :=
  if value == "--" then .list [] else .text value

/-- The effects of an argument: options with their values, and whether the next argument was one of them. -/
structure Effects where
  actions : List (Switch × String)
  usesNext : Bool := false
  deriving Inhabited

namespace Effects

/-- Effects of which an option without a value is the first. -/
def after (switch : Switch) (effects : Effects) : Effects :=
  { effects with actions := (switch, "") :: effects.actions }

end Effects

/-- The effects of an option with nothing glued to it. -/
def loose (next : Option String) (switch : Switch) : Except Stop Effects :=
  if switch.takesValue then
    match next with
    | some value => .ok { actions := [(switch, value)], usesNext := true }
    | none => .error (switch.fault "expected one argument")
  else .ok { actions := [(switch, "")] }

/-- The fault of a value that an option does not take. -/
def ignored (switch : Switch) (value : List Char) : Stop :=
  switch.fault ("ignored explicit argument " ++ Text.literal (String.ofList value))

/-- The effects of a short option with characters glued to it: its value, or more short options. -/
def cluster (next : Option String) (switch : Switch) : List Char → Except Stop Effects
  | [] => loose next switch
  | c :: rest =>
      if switch.takesValue then .ok { actions := [(switch, String.ofList (c :: rest))] }
      else
        match Switch.ofLetter? c with
        | none => .error (ignored switch (c :: rest))
        | some other => (cluster next other rest).map (Effects.after switch)

def effects (next : Option String) (switch : Switch) (isLong : Bool) (glued : Option (List Char)) : Except Stop Effects :=
  match glued with
  | none => loose next switch
  | some value =>
      if switch.takesValue then .ok { actions := [(switch, String.ofList value)] }
      else if isLong || value.isEmpty then .error (ignored switch value)
      else cluster next switch value

def act (arguments : Arguments) (action : Switch × String) : Except Stop Arguments :=
  match action.1 with
  | .help => .error .help
  | .fragment => .ok { arguments with fragment := true }
  | .margin => .ok { arguments with margin := settingOf action.2 }
  | .indent => .ok { arguments with indent := settingOf action.2 }
  | .verbose => .ok { arguments with verbose := true }

def actAll (arguments : Arguments) : List (Switch × String) → Except Stop Arguments
  | [] => .ok arguments
  | action :: rest => do
      let changed ← act arguments action
      actAll changed rest

/-- The next argument, if it can be a value. -/
def nextValue? : List (String × Word) → Option String
  | (value, .plain) :: _ => some value
  | _ => none

/-- Lets arguments take effect in order. The counter tells how many of them are values that have been used; the result holds those that were no options. -/
def interpret (skip : Nat) (arguments : Arguments) : List (String × Word) → Except Stop (Arguments × List String)
  | [] => .ok (arguments, [])
  | (argument, word) :: rest =>
      match skip with
      | skip + 1 => interpret skip arguments rest
      | 0 =>
          match word with
          | .option switch isLong glued => do
              let found ← effects (nextValue? rest) switch isLong glued
              let changed ← actAll arguments found.actions
              interpret (if found.usesNext then 1 else 0) changed rest
          | _ => do
              let (last, extras) ← interpret 0 arguments rest
              return (last, argument :: extras)

/-- The values that arguments give, or why they give none. -/
def parseArguments (arguments : List String) : Except Stop Arguments := do
  let words ← classifyAll arguments
  let (values, extras) ← interpret 0 {} words
  if extras.isEmpty then return values
  else throw (.usage ("unrecognized arguments: " ++ String.intercalate " " extras))

namespace Arguments

def options (arguments : Arguments) : Options :=
  Options.ofTable
    [("fragment", .truth arguments.fragment), ("prefix", arguments.margin), ("indent", arguments.indent),
      ("verbose", .truth arguments.verbose)]

end Arguments

end HtmlLayout.CommandLine
