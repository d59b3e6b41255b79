import Progressions.Event
import Progressions.Fault
import Progressions.Grammar.Cursor

/-!
# From text to sequence

A text is read as tokens, the tokens as a specification, and the specification as
a sequence, whose pattern is found if it has an ellipsis.
-/

set_option autoImplicit false

namespace Progressions

/-- The specification that a text is. -/
def Specification.ofText (source : String) : Except Fault Specification :=
  match tokenize source with
  | .error cause => .error (.number cause)
  | .ok tokens => (Specification.ofTokens tokens).mapError .grammar

namespace Sequence

/-- The sequence that a specification describes. -/
def ofSpecification (specification : Specification) : Except Fault Sequence :=
  if specification.hasEllipsis then
    match classify specification.numbers specification.ellipsisLocation with
    | .error cause => .error (.pattern cause)
    | .ok classification =>
      (ofParts ⟨specification.numbers, true, .ofPattern classification.pattern,
        specification.bound, some classification.step⟩).mapError .sequence
  else
    (ofParts ⟨specification.numbers, false, .itemized, none, none⟩).mapError .sequence

/-- The sequence that a text describes. -/
def ofText (source : String) : Except Fault Sequence := do
  ofSpecification (← Specification.ofText source)

/-- What is reported while a text is read as a sequence. -/
def readingEvents (source : String) : List Event :=
  match Specification.ofText source with
  | .error _ => []
  | .ok specification =>
    .parsed specification ::
      if specification.hasEllipsis then
        match classify specification.numbers specification.ellipsisLocation with
        | .error _ => []
        | .ok classification => [.classified specification.numbers classification]
      else
        []

end Sequence

/-- An iterator over the sequence that a text describes. -/
def Iterator.ofText (source : String) : Except Fault Iterator :=
  (Sequence.ofText source).map .ofSequence

end Progressions
