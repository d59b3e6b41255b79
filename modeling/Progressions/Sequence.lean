import Progressions.Grammar.Specification
import Progressions.Pattern
import Progressions.Value.Basic

/-!
# Sequences

A sequence has one or more numbers and, if it goes on past them, a progression:
a pattern, its step, and an optional bound.  A bound, a step and a pattern
therefore exist only together with an ellipsis.

`ofParts` builds a sequence from loose parts and names the first of these rules
that they break.
-/

set_option autoImplicit false

namespace Progressions

structure Progression where
  pattern : Pattern
  step : Number
  bound : Option Number
deriving DecidableEq

structure Sequence where
  numbers : List Number
  progression : Option Progression
  nonempty : numbers ≠ []
deriving DecidableEq

inductive SequenceKind where
  | arithmetic
  | geometric
  | itemized
deriving DecidableEq

namespace SequenceKind

def label : SequenceKind → String
  | .arithmetic => "arithmetic"
  | .geometric => "geometric"
  | .itemized => "itemized"

def name : SequenceKind → String
  | .arithmetic => "ARITHMETIC"
  | .geometric => "GEOMETRIC"
  | .itemized => "ITEMIZED"

def ofName? (name : String) : Option SequenceKind :=
  [.arithmetic, .geometric, .itemized].find? (·.name == name)

def pattern? : SequenceKind → Option Pattern
  | .arithmetic => some .arithmetic
  | .geometric => some .geometric
  | .itemized => none

def ofPattern : Pattern → SequenceKind
  | .arithmetic => .arithmetic
  | .geometric => .geometric

end SequenceKind

inductive SequenceError where
  | noNumbers
  /-- The kind and the ellipsis contradict each other. -/
  | kindMismatch (kind : SequenceKind) (hasEllipsis : Bool)
  | boundWithoutEllipsis
  /-- There is a step without an ellipsis or an ellipsis without a step. -/
  | stepMismatch
deriving DecidableEq

def SequenceError.message : SequenceError → String
  | .noNumbers => "a sequence needs at least one number"
  | .kindMismatch kind hasEllipsis =>
    kind.label ++ " sequence with has_ellipsis=" ++ truthText hasEllipsis
  | .boundWithoutEllipsis => "a bound requires an ellipsis"
  | .stepMismatch => "step must be set exactly when the sequence has an ellipsis"

namespace Sequence

/-- The parts of a sequence before the rules are checked. -/
structure Parts where
  numbers : List Number
  hasEllipsis : Bool
  kind : SequenceKind
  bound : Option Number
  step : Option Number

def ofParts (parts : Parts) : Except SequenceError Sequence :=
  if nonempty : parts.numbers = [] then .error .noNumbers
  else if (parts.kind == .itemized) == parts.hasEllipsis then
    .error (.kindMismatch parts.kind parts.hasEllipsis)
  else if parts.bound.isSome && !parts.hasEllipsis then .error .boundWithoutEllipsis
  else
    match parts.kind.pattern?, parts.step with
    | none, none => .ok ⟨parts.numbers, none, nonempty⟩
    | some pattern, some step => .ok ⟨parts.numbers, some ⟨pattern, step, parts.bound⟩, nonempty⟩
    | _, _ => .error .stepMismatch

def hasEllipsis (sequence : Sequence) : Bool := sequence.progression.isSome

def kind (sequence : Sequence) : SequenceKind :=
  match sequence.progression with
  | some progression => .ofPattern progression.pattern
  | none => .itemized

def bound (sequence : Sequence) : Option Number := sequence.progression.bind (·.bound)

def step (sequence : Sequence) : Option Number := sequence.progression.map (·.step)

def isInfinite (sequence : Sequence) : Bool := sequence.hasEllipsis && sequence.bound.isNone

def last (sequence : Sequence) : Number := sequence.numbers.getLast sequence.nonempty

def equals (left right : Sequence) : Bool :=
  Number.allEqual left.numbers right.numbers && left.kind == right.kind &&
    Number.optionEqual left.bound right.bound && Number.optionEqual left.step right.step

end Sequence

end Progressions
