import Progressions.Sequence

/-!
# Descriptions

A sequence is described by an object with its numbers, whether it has an ellipsis,
its bound if it has one, its kind and its step.
-/

set_option autoImplicit false

namespace Progressions

namespace Sequence

def boundKey : String := "last_number"

def stepKey : String := "inc"

def describe (sequence : Sequence) : Value :=
  .object
    ([("numbers", .list (sequence.numbers.map .number)),
      ("has_ellipsis", .bool sequence.hasEllipsis)] ++
    (if sequence.hasEllipsis then [(boundKey, .ofOption sequence.bound)] else []) ++
    [("type", .text sequence.kind.label), (stepKey, .ofOption sequence.step)])

end Sequence

namespace Value

/-- An infinite number as the word that specifications use for it. -/
def spellInfinity : Value → Value
  | .number (.float (.infinite negative)) => .text (if negative then "-Inf" else "Inf")
  | value => value

/-- The entries with the bound and the step spelled, so that JSON can hold them. -/
def spellEntries (entries : List (String × Value)) : List (String × Value) :=
  entries.map fun (key, value) =>
    if key = Sequence.boundKey ∨ key = Sequence.stepKey then (key, value.spellInfinity)
    else (key, value)

def spellLimits : Value → Value
  | .object entries => .object (spellEntries entries)
  | value => value

end Value

end Progressions
