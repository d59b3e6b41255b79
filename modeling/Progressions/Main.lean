import Progressions.CommandLine.Run

/-!
# The program

Values are written to the standard output as they are produced; all else is
written when the run has ended.
-/

set_option autoImplicit false

namespace Progressions.CommandLine

/-- Writes pieces up to the first that is a fault or cannot be written. -/
def writePieces (output : IO.FS.Stream) : List (Except Fault String) → IO (Option Fault)
  | [] => return none
  | .error fault :: _ => return some fault
  | .ok piece :: rest => do
    try
      output.putStr piece
      output.flush
    catch _ => return some .brokenPipe
    writePieces output rest

/-- Takes all steps of a printer. -/
partial def printSteps (settings : Settings) (printer : Printer) : IO (Option Fault) := do
  let step := printer.step
  (← IO.getStderr).putStr (eventText settings step.events)
  match ← writePieces (← IO.getStdout) step.pieces, step.next with
  | none, some next => printSteps settings next
  | fault, _ => return fault

/-- The exit code of a status; a fault is reported and has the code one. -/
def exitCode : Except Fault Nat → IO UInt32
  | .ok status => return status.toUInt32
  | .error fault => do
    (← IO.getStderr).putStr (failureLine fault.message)
    return 1

/-- A run that prints no values: its transcript needs no fuel. -/
def writeTranscript (arguments : List String) : IO UInt32 := do
  match run 0 arguments none with
  | none => return okStatus.toUInt32
  | some transcript =>
    (← IO.getStdout).putStr transcript.stdout
    (← IO.getStderr).putStr transcript.stderr
    exitCode transcript.status

end Progressions.CommandLine

open Progressions Progressions.CommandLine in
def main (arguments : List String) : IO UInt32 := do
  match Invocation.ofArguments arguments with
  | .run source settings =>
    match settings.describe, printer source settings with
    | false, .ok printer =>
      (← IO.getStderr).putStr (eventText settings (Sequence.readingEvents source))
      exitCode (printedStatus (← printSteps settings printer))
    | _, _ => writeTranscript arguments
  | _ => writeTranscript arguments
