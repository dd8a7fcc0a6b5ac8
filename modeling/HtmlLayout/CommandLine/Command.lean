import HtmlLayout.CommandLine.Arguments
import HtmlLayout.CommandLine.Job

/-!
# The command

The command reads its arguments, formats its input, and ends with a status: zero when all went
well, one when the job failed, and two when the arguments were at fault. Records go to the error
output, with `-v` all of them and else only those that tell of trouble. A failed job is such a
record.
-/

namespace HtmlLayout.CommandLine

def usage : String := "usage: htmlindent [-h] [-f] [-p PREFIX] [-i INDENT] [-v]\n"

def helpText : String :=
  usage ++
    "\nReformat HTML from stdin with consistent indentation.\n\noptions:\n" ++
    "  -h, --help            show this help message and exit\n" ++
    "  -f, --fragment        parse input as a fragment\n" ++
    "  -p PREFIX, --prefix PREFIX\n" ++
    "                        prefix for each line\n" ++
    "  -i INDENT, --indent INDENT\n" ++
    "                        indent marker\n" ++
    "  -v, --verbose         enable debug logging\n"

/-- How a run of the command ended. -/
structure Outcome where
  status : Nat
  output : String := ""
  errorOutput : String := ""
  /-- Why the job failed, if it did. -/
  failure : Option Failure := none
  deriving Inhabited

def recordLine (record : Record) : String :=
  record.level.name ++ " " ++ record.origin ++ ": " ++ record.message ++ "\n"

def threshold (verbose : Bool) : Level := if verbose then .debug else .warning

/-- The records that are shown, as text. -/
def shownRecords (verbose : Bool) (records : Array Record) : String :=
  String.join ((records.toList.filter fun record => (threshold verbose).weight ≤ record.level.weight).map recordLine)

def perform (part : String) (calls : Nat) (arguments : Arguments) (input : Input) : Run Unit :=
  match arguments.options.validate with
  | .error error => throw (.option error)
  | .ok format => job part calls format input

def execute (part : String) (calls : Nat) (arguments : Arguments) (input : Input) (output : Channel) : Outcome :=
  match (perform part calls arguments input).run.run output with
  | (.ok _, channel) =>
      { status := 0, output := channel.text, errorOutput := shownRecords arguments.verbose channel.records }
  | (.error failure, channel) =>
      let last : Record := { level := .error, origin := originName part, message := failure.message }
      { status := 1
        output := channel.text
        errorOutput := shownRecords arguments.verbose (channel.records.push last)
        failure := some failure }

/-- Runs the command on its arguments, its input and its output. -/
def command (part : String) (calls : Nat) (arguments : List String) (input : Input) (output : Channel) : Outcome :=
  match parseArguments arguments with
  | .error .help => { status := 0, output := helpText }
  | .error (.usage problem) =>
      { status := 2, errorOutput := usage ++ programName ++ ": error: " ++ problem ++ "\n" }
  | .ok values => execute part calls values input output

end HtmlLayout.CommandLine
