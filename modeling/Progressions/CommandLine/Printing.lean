import Progressions.Event
import Progressions.Fault

/-!
# Printing values

Values are printed as they are produced, with a separator between them and a line
end behind the last.  Each step of a `Printer` first moves the iterator and then
says what is to be written, so that one value more is produced than written at
most.

An `Outlet` is a standard output whose reader may hang up: once it holds a number
of line ends, no further piece can be written.
-/

set_option autoImplicit false

namespace Progressions.CommandLine

structure Outlet where
  written : String
  /-- The number of line ends the reader waits for, if it does not wait forever. -/
  patience : Option Nat

namespace Outlet

def lineEnds (text : String) : Nat := text.toList.count '\n'

def closed (outlet : Outlet) : Bool :=
  match outlet.patience with
  | none => false
  | some patience => decide (patience ≤ lineEnds outlet.written)

def append (outlet : Outlet) (piece : String) : Outlet :=
  { outlet with written := outlet.written ++ piece }

/-- The pieces in order, up to the first that is a fault or cannot be written. -/
def writeAll (outlet : Outlet) : List (Except Fault String) → Outlet × Option Fault
  | [] => (outlet, none)
  | .error fault :: _ => (outlet, some fault)
  | .ok piece :: rest =>
    if outlet.closed then (outlet, some .brokenPipe) else (outlet.append piece).writeAll rest

end Outlet

structure Printer where
  iterator : Iterator
  /-- How many values may still be printed; all of them if there is no number. -/
  remaining : Option Nat
  separator : Option String
  /-- Nothing has been printed yet. -/
  first : Bool

/-- What a step of a printer writes, the printer after it unless it is done, and what is
reported meanwhile. -/
structure PrintStep where
  pieces : List (Except Fault String)
  next : Option Printer
  events : List Event

namespace Printer

def separatorPiece (printer : Printer) : Except Fault String :=
  match printer.separator with
  | some separator => .ok separator
  | none => .error .separatorMissing

def step (printer : Printer) : PrintStep :=
  if printer.remaining = some 0 then ⟨[.ok "\n"], none, []⟩
  else
    let (pull, after) := printer.iterator.pull
    let events := pull.events printer.iterator.sequence
    match pull.outcome with
    | .error cause => ⟨[.error (.stream cause)], none, events⟩
    | .ok none => ⟨[.ok "\n"], none, events⟩
    | .ok (some value) =>
      let pieces := [value.printed.mapError Fault.number]
      ⟨if printer.first then pieces else printer.separatorPiece :: pieces,
        some ⟨after, printer.remaining.map (· - 1), printer.separator, false⟩, events⟩

end Printer

structure Printed where
  outlet : Outlet
  fault : Option Fault
  events : List Event

/-- All steps of a printer, if they are no more than the fuel. -/
def Printer.run : Nat → Printer → Outlet → Option Printed
  | 0, _, _ => none
  | fuel + 1, printer, outlet =>
    let step := printer.step
    match outlet.writeAll step.pieces with
    | (outlet, some fault) => some ⟨outlet, some fault, step.events⟩
    | (outlet, none) =>
      match step.next with
      | none => some ⟨outlet, none, step.events⟩
      | some next =>
        (run fuel next outlet).map fun printed =>
          { printed with events := step.events ++ printed.events }

/-- The text of the given values as they are printed, up to a value that cannot be. -/
def writeValues (values : List Number) (separator : String) : Outlet × Option Fault :=
  let pieces := values.map fun value => [value.printed.mapError Fault.number]
  Outlet.writeAll ⟨"", none⟩ (List.intercalate [.ok separator] pieces ++ [.ok "\n"])

end Progressions.CommandLine
