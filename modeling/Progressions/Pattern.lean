import Progressions.Diagnostic
import Progressions.Number.Text

/-!
# Patterns

Numbers follow an arithmetic pattern when neighbours have a constant difference
and a geometric one when they have a constant ratio; a ratio over zero does not
exist.  Comparisons are exact on the computed differences and ratios.  Arithmetic
comes first, so equal numbers have the difference zero.
-/

set_option autoImplicit false

namespace Progressions

inductive Pattern where
  | arithmetic
  | geometric
deriving DecidableEq

structure Classification where
  pattern : Pattern
  step : Number
deriving DecidableEq

inductive PatternError where
  | tooFew (count : Nat)
  | missingTerm
  | number (cause : NumberError)
  | unclassifiable (numbers : List Number) (location : Option Location)
deriving DecidableEq

namespace PatternError

def message : PatternError → String
  | .tooFew count => "need at least two numbers to classify, got " ++ toString count
  | .missingTerm => "list index out of range"
  | .number cause => cause.message
  | .unclassifiable numbers _ =>
    "Can't classify number sequence: cannot determine pattern from: " ++
      ", ".intercalate (numbers.map Number.plain)

def unclassifiableCode : String := "C001"

def unclassifiableHelp : String :=
  "Only arithmetic (constant difference) and geometric (constant ratio) sequences are recognized"

/-- The fault of numbers that follow neither pattern; its message must be writable. -/
def ofNumbers (numbers : List Number) (location : Option Location) : PatternError :=
  if numbers.all Number.writable then .unclassifiable numbers location
  else .number .textTooLong

end PatternError

namespace Pattern

/-- What leads from the first number to the second; `none` where nothing does. -/
abbrev Link := Number → Number → Except NumberError (Option Number)

def difference : Link := fun previous current => (current.sub previous).map some

def ratio : Link := fun previous current =>
  if previous.isZero then .ok none else (current.div previous).map some

/-- Every neighbour from `previous` on is linked by a step equal to the given one. -/
def isSteady (link : Link) (step : Number) : Number → List Number → Except NumberError Bool
  | _, [] => .ok true
  | previous, current :: rest => do
    match ← link previous current with
    | some found => if found.equals step then isSteady link step current rest else return false
    | none => return false

/-- The step between the first two numbers, if all others have an equal one. -/
def commonStep (link : Link) : List Number → Except PatternError (Option Number)
  | first :: second :: rest =>
    Except.mapError PatternError.number do
      match ← link first second with
      | some step => return if ← isSteady link step second rest then some step else none
      | none => return none
  | _ => .error .missingTerm

end Pattern

def commonDifference (numbers : List Number) : Except PatternError (Option Number) :=
  Pattern.commonStep Pattern.difference numbers

/-- The constant ratio, which no number has to a zero in front of it. -/
def commonRatio (numbers : List Number) : Except PatternError (Option Number) :=
  match numbers with
  | [first] => if first.isZero then .ok none else .error .missingTerm
  | _ => Pattern.commonStep Pattern.ratio numbers

/-- The pattern of numbers; the location is where a fault points. -/
def classify (numbers : List Number) (location : Option Location) :
    Except PatternError Classification :=
  if numbers.length < 2 then .error (.tooFew numbers.length)
  else do
    match ← commonDifference numbers with
    | some step => return ⟨.arithmetic, step⟩
    | none =>
      match ← commonRatio numbers with
      | some step => return ⟨.geometric, step⟩
      | none => throw (.ofNumbers numbers location)

end Progressions
