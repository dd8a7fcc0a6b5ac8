import HtmlLayout.CommandLine.Command

/-!
# The program

Connects the command with the standard streams. The input is read only if there is a job to do. What
the command writes is kept back until the end, so an output that fails does so where the command
flushes it.
-/

namespace HtmlLayout.CommandLine

/-- Reads a stream to its end. -/
partial def readAll (stream : IO.FS.Stream) (read : ByteArray) : IO ByteArray := do
  let more ← stream.read 65536
  if more.isEmpty then return read else readAll stream (read ++ more)

def readStandardInput : IO Input := do
  try
    let bytes ← readAll (← IO.getStdin) ByteArray.empty
    return .ok bytes.data.toList
  catch problem =>
    return .error (toString problem)

/-- Writes to the standard output and gives its words if it fails. -/
def writeStandardOutput (text : String) : IO (Option String) := do
  try
    let stream ← IO.getStdout
    stream.putStr text
    stream.flush
    return none
  catch problem =>
    return some (toString problem)

end HtmlLayout.CommandLine

open HtmlLayout.CommandLine in
def main (arguments : List String) : IO UInt32 := do
  let input ← match parseArguments arguments with
    | .ok _ => readStandardInput
    | .error _ => pure (.ok [])
  let run := command commandPart HtmlLayout.defaultCalls arguments input
  let full := run {}
  let outcome := match ← writeStandardOutput full.output with
    | none => full
    | some words => run { flushRefusal := some words }
  (← IO.getStderr).putStr outcome.errorOutput
  return UInt32.ofNat outcome.status
