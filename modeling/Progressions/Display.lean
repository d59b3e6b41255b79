import Progressions.Stream.Iterator

/-!
# One-line forms

The forms in which specifications, sequences and iterators are shown, with their
fields by name.  Numbers must be within the digit limit.
-/

set_option autoImplicit false

namespace Progressions

/-- Numbers in parentheses; a single one has a comma after it. -/
def tupleText (numbers : List Number) : Except NumberError String := do
  match ← numbers.mapM Number.text with
  | [single] => return "(" ++ single ++ ",)"
  | texts => return "(" ++ ", ".intercalate texts ++ ")"

/-- Numbers in brackets. -/
def listText (numbers : List Number) : Except NumberError String := do
  return "[" ++ (← Number.commaTexts numbers) ++ "]"

def Specification.display (specification : Specification) : Except NumberError String := do
  let numbers ← tupleText specification.numbers
  let bound ← optionText specification.bound
  return "SequenceSpec(source=" ++ Text.quoted specification.source ++ ", numbers=" ++ numbers ++
    ", has_ellipsis=" ++ truthText specification.hasEllipsis ++ ", last_bound=" ++ bound ++
    ", ellipsis_location=" ++
    (specification.ellipsisLocation.map Location.display).getD nothingText ++ ")"

def SequenceKind.display (kind : SequenceKind) : String :=
  "<SequenceKind." ++ kind.name ++ ": " ++ Text.quoted kind.label ++ ">"

def Sequence.display (sequence : Sequence) : Except NumberError String := do
  let numbers ← tupleText sequence.numbers
  let bound ← optionText sequence.bound
  let step ← optionText sequence.step
  return "ParsedSequence(numbers=" ++ numbers ++ ", has_ellipsis=" ++
    truthText sequence.hasEllipsis ++ ", kind=" ++ sequence.kind.display ++ ", last_bound=" ++
    bound ++ ", step=" ++ step ++ ")"

def Iterator.display (iterator : Iterator) : Except NumberError String := do
  return "SequenceIterator(" ++ (← iterator.sequence.display) ++ ", phase=" ++
    iterator.state.phase.name ++ ")"

end Progressions
