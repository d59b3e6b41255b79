import Progressions.CommandLine.Arguments
import Progressions.CommandLine.Printing
import Progressions.Response

/-!
# Running the command line

A run prints the values of a specification, or its description, or an explanation,
and ends with a status.  `run` gives the whole of it for an output whose reader may
hang up; a sequence that nothing ends takes more fuel than there is.
-/

set_option autoImplicit false

namespace Progressions.CommandLine

def okStatus : Nat := 0

def failureStatus : Nat := 2

/-- What a run left behind.  A fault that nothing handles takes the place of the status. -/
structure Transcript where
  status : Except Fault Nat
  stdout : String
  stderr : String

/-- Limits from here on are refused. -/
def limitCeiling : Int := 9223372036854775808

def failureLine (reason : String) : String := programName ++ ": " ++ reason ++ "\n"

def eventText (settings : Settings) (events : List Event) : String :=
  if settings.verbose then String.join ((Event.lines events).map (· ++ "\n")) else ""

def description (source : String) : Except Fault (Except String String) :=
  match Response.ofText source with
  | .error fault => .error fault
  | .ok response =>
    if response.isOk then
      let document : Value :=
        .object [("status", .number (.int response.status)), ("message", .text response.message),
          ("payload", (response.payload.getD .null).spellLimits)]
      match document.json with
      | .error cause => .error (.json cause)
      | .ok text => .ok (.ok text)
    else
      .ok (.error response.message)

def printer (source : String) (settings : Settings) : Except Fault Printer :=
  match Iterator.ofText source with
  | .error fault => .error fault
  | .ok iterator =>
    match settings.limit with
    | none => .error .limitMissing
    | some limit =>
      if limitCeiling ≤ limit then .error .limitTooLarge
      else
        let remaining := if 0 < limit then some limit.toNat else none
        .ok ⟨iterator, remaining, settings.separator, true⟩

/-- The transcript of writing texts that must all be read. -/
def Outlet.deliver (outlet : Outlet) (texts : List String) (log : String) : Transcript :=
  match outlet.writeAll (texts.map .ok) with
  | (outlet, some fault) => ⟨.error fault, outlet.written, log⟩
  | (outlet, none) => ⟨.ok okStatus, outlet.written, log⟩

def describe (source : String) (settings : Settings) (outlet : Outlet) : Transcript :=
  let log := eventText settings (Response.events source)
  match description source with
  | .error fault => ⟨.error fault, outlet.written, log⟩
  | .ok (.error reason) => ⟨.ok failureStatus, outlet.written, log ++ failureLine reason⟩
  | .ok (.ok text) =>
    outlet.deliver [text, "\n"] log

/-- The status of a run of a printer: a reader that hangs up is no failure. -/
def printedStatus : Option Fault → Except Fault Nat
  | none => .ok okStatus
  | some .brokenPipe => .ok okStatus
  | some fault => .error fault

def printAll (fuel : Nat) (source : String) (settings : Settings) (outlet : Outlet) :
    Option Transcript :=
  let reading := Sequence.readingEvents source
  match printer source settings with
  | .error fault =>
    let log := eventText settings reading
    if fault.isRejection then
      some ⟨.ok failureStatus, outlet.written, log ++ failureLine fault.message⟩
    else
      some ⟨.error fault, outlet.written, log⟩
  | .ok printer =>
    (printer.run fuel outlet).map fun printed =>
      ⟨printedStatus printed.fault, printed.outlet.written,
        eventText settings (reading ++ printed.events)⟩

def run (fuel : Nat) (arguments : List String) (patience : Option Nat) : Option Transcript :=
  let outlet : Outlet := ⟨"", patience⟩
  match Invocation.ofArguments arguments with
  | .help => some (outlet.deliver [helpText] "")
  | .version => some (outlet.deliver [versionText] "")
  | .misuse error => some ⟨.ok failureStatus, "", error.report⟩
  | .run source settings =>
    if settings.describe then some (describe source settings outlet)
    else printAll fuel source settings outlet

end Progressions.CommandLine
