import HtmlLayout.Failure
import HtmlLayout.Text.Ascii

/-!
# Output and records

An operation writes to an output and notes records about its progress. The output keeps every
single write, the empty ones too, and may have room for a limited number of them: once the room is
used up, each further write fails and changes nothing. It may also refuse to be flushed. Either way it
says why in its own words.

Operations run in `Run`: a state that survives a failure, so what was written and noted before it
is still there afterwards. An operation that walks down a tree opens calls inside each other, and
only so many of them can be open at once.
-/

namespace HtmlLayout

/-- How serious a record is. -/
inductive Level where
  | debug
  | info
  | warning
  | error
  deriving DecidableEq, Repr, Inhabited

namespace Level

def name : Level → String
  | debug => "DEBUG"
  | info => "INFO"
  | warning => "WARNING"
  | error => "ERROR"

def weight : Level → Nat
  | debug => 10
  | info => 20
  | warning => 30
  | error => 40

end Level

/-- A record of progress, with the name of the part that noted it. -/
structure Record where
  level : Level
  origin : String
  message : String
  deriving DecidableEq, Repr, Inhabited

def programName : String := "htmlindent"

/-- The full name of a part: names outside the program's hierarchy are put below it. -/
def originName (part : String) : String :=
  if part == programName || Text.startsWith part (programName ++ ".") then part
  else programName ++ "." ++ part

/-- The output of an operation and the records noted so far. -/
structure Channel where
  /-- Every write in order. -/
  writes : Array String := #[]
  /-- How many more writes succeed; without a number, all of them. -/
  room : Option Nat := none
  /-- What a write that finds no room is told. -/
  refusal : String := ""
  /-- What the output says when it cannot be flushed, if it cannot. -/
  flushRefusal : Option String := none
  /-- The records in order. -/
  records : Array Record := #[]
  deriving Inhabited

namespace Channel

/-- All that has been written, as one text. -/
def text (channel : Channel) : String :=
  String.join channel.writes.toList

end Channel

/-- An operation with output and records that may fail. -/
abbrev Run := ExceptT Failure (StateM Channel)

def write (text : String) : Run Unit :=
  fun channel =>
    match channel.room with
    | some 0 => (.error (.output channel.refusal), channel)
    | some (room + 1) => (.ok (), { channel with writes := channel.writes.push text, room := some room })
    | none => (.ok (), { channel with writes := channel.writes.push text })

/-- Makes the output pass on all that was written. -/
def flush : Run Unit :=
  fun channel =>
    match channel.flushRefusal with
    | some words => (.error (.output words), channel)
    | none => (.ok (), channel)

def note (level : Level) (part message : String) : Run Unit :=
  fun channel =>
    (.ok (), { channel with records := channel.records.push { level, origin := originName part, message } })

/-- How many calls may be open inside each other, unless something else is said. -/
def defaultCalls : Nat := 1000

/-- Opens `needed` of the calls that are left and goes on inside them. -/
def enter {α : Type} (calls needed : Nat) (inside : Nat → Run α) : Run α :=
  if calls < needed then throw .tooDeep else inside (calls - needed)

end HtmlLayout
