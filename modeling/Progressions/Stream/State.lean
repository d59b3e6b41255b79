import Progressions.Position
import Progressions.Sequence

/-!
# Handing out values

A state says how far the values of a sequence have been handed out.  It first
replays the numbers, then progresses from the last of them by the step, and is
exhausted when the numbers end without an ellipsis or a value passes the bound.

`advance` moves a state by one value.  An error leaves the state where it arose:
behind the switch to progressing, before the new value is kept.
-/

set_option autoImplicit false

namespace Progressions

/-- Why there is no next value, or no answer whether a value passes the bound. -/
inductive StreamError where
  | number (cause : NumberError)
  /-- An itemized sequence was to progress. -/
  | itemized
  /-- There is no value to progress from. -/
  | noCurrent (pattern : Pattern) (step : Number)
  /-- A value was compared with the bound of an itemized sequence. -/
  | noStep
  /-- A value was compared with a bound that is not there. -/
  | noBound (rising : Bool) (value : Number)
  /-- The next number would stand before the first. -/
  | beforeFirst
deriving DecidableEq

namespace StreamError

def operatorSign : Pattern → String
  | .arithmetic => "+"
  | .geometric => "*"

def message : StreamError → String
  | .number cause => cause.message
  | .itemized => SequenceKind.itemized.label ++ " sequence has no step"
  | .noCurrent pattern step =>
    "unsupported operand type(s) for " ++ operatorSign pattern ++ ": 'NoneType' and '" ++
      step.typeName ++ "'"
  | .noStep => "'>=' not supported between instances of 'NoneType' and 'int'"
  | .noBound rising value =>
    "'" ++ (if rising then ">" else "<") ++ "' not supported between instances of '" ++
      value.typeName ++ "' and 'NoneType'"
  | .beforeFirst => "tuple index out of range"

end StreamError

namespace Progression

def next (progression : Progression) (current : Number) : Except NumberError Number :=
  match progression.pattern with
  | .arithmetic => current.add progression.step
  | .geometric => current.mul progression.step

/-- The least step that makes values rise. -/
def pivot (progression : Progression) : Number :=
  match progression.pattern with
  | .arithmetic => .int 0
  | .geometric => .int 1

def rises (progression : Progression) : Bool := progression.step.atLeast progression.pivot

/-- The value lies beyond the bound in the direction of the step. -/
def passes (progression : Progression) (value bound : Number) : Bool :=
  if progression.rises then value.greater bound else value.less bound

end Progression

namespace Sequence

def nextValue (sequence : Sequence) (current : Option Number) : Except StreamError Number :=
  match sequence.progression with
  | none => .error .itemized
  | some progression =>
    match current with
    | none => .error (.noCurrent progression.pattern progression.step)
    | some value => (progression.next value).mapError .number

def exceedsBound (sequence : Sequence) (value : Number) : Except StreamError Bool :=
  match sequence.progression with
  | none => .error .noStep
  | some progression =>
    match progression.bound with
    | none => .error (.noBound progression.rises value)
    | some bound => .ok (progression.passes value bound)

end Sequence

namespace Stream

inductive Phase where
  | replaying
  | progressing
  | exhausted
deriving DecidableEq

namespace Phase

def name : Phase → String
  | .replaying => "REPLAYING"
  | .progressing => "PROGRESSING"
  | .exhausted => "EXHAUSTED"

def ofName? (name : String) : Option Phase :=
  [.replaying, .progressing, .exhausted].find? (·.name == name)

end Phase

structure State where
  /-- The position of the next number to be replayed. -/
  index : Int
  /-- The value to progress from. -/
  current : Option Number
  phase : Phase
deriving DecidableEq

/-- What one move gave: a value, `none` at the end, or an error; the state after it; and whether
this move was the one that found the end. -/
structure Pull where
  outcome : Except StreamError (Option Number)
  state : State
  foundEnd : Bool

namespace State

def fresh : State := ⟨0, none, .replaying⟩

def exhausted (state : State) : Bool := state.phase == .exhausted

def exhaust (state : State) : Pull := ⟨.ok none, { state with phase := .exhausted }, true⟩

def progress (state : State) (sequence : Sequence) : Pull :=
  match sequence.nextValue state.current with
  | .error cause => ⟨.error cause, state, false⟩
  | .ok value =>
    let moved : State := { state with current := some value }
    if sequence.bound.isSome then
      match sequence.exceedsBound value with
      | .error cause => ⟨.error cause, moved, false⟩
      | .ok true => moved.exhaust
      | .ok false => ⟨.ok (some value), moved, false⟩
    else
      ⟨.ok (some value), moved, false⟩

def advance (state : State) (sequence : Sequence) : Pull :=
  match state.phase with
  | .exhausted => ⟨.ok none, state, false⟩
  | .progressing => state.progress sequence
  | .replaying =>
    match Position.item? sequence.numbers state.index with
    | some value => ⟨.ok (some value), { state with index := state.index + 1 }, false⟩
    | none =>
      if state.index < 0 then ⟨.error .beforeFirst, state, false⟩
      else if sequence.hasEllipsis then
        progress { state with phase := .progressing, current := some sequence.last } sequence
      else
        state.exhaust

end State

end Stream

end Progressions
