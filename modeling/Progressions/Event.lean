import Progressions.Display

/-!
# Events

What the library reports of its work while it runs: every specification parsed,
every pattern found, every end reached, every specification rejected, and every
option ignored.
-/

set_option autoImplicit false

namespace Progressions

inductive Event where
  | parsed (specification : Specification)
  | classified (numbers : List Number) (classification : Classification)
  | exhausted (numbers : List Number) (index : Int)
  | rejected (source message : String)
  | optionsIgnored (names : List String)

namespace Event

/-- Ignored options are a warning; all else helps to follow the work. -/
def isWarning : Event → Bool
  | .optionsIgnored _ => true
  | _ => false

/-- The channel an event is reported on. -/
def channel : Event → String
  | .parsed _ => "numseq.parser.parser"
  | .classified _ _ => "numseq.analyzer.classifier"
  | .exhausted _ _ => "numseq.iterator"
  | .rejected _ _ => "numseq.api"
  | .optionsIgnored _ => "numseq.config"

def text : Event → Except NumberError String
  | .parsed specification => do
    return "Parsed " ++ Text.quoted specification.source ++ ": " ++
      toString specification.terms.length ++ " numbers, ellipsis=" ++
      truthText specification.hasEllipsis ++ ", bound=" ++ (← optionText specification.bound)
  | .classified numbers classification => do
    return "Classified " ++ (← listText numbers) ++ " as " ++
      (SequenceKind.ofPattern classification.pattern).label ++ ", step " ++
      (← classification.step.text)
  | .exhausted numbers index => do
    return "Sequence " ++ (← listText numbers) ++ " exhausted after " ++ toString index ++
      " explicit numbers"
  | .rejected source message => .ok ("Rejected " ++ Text.quoted source ++ ": " ++ message)
  | .optionsIgnored names =>
    .ok ("Ignoring unknown numseq option(s): " ++ ", ".intercalate names)

/-- The line of an event with its level and channel. -/
def line (event : Event) : Except NumberError String := do
  let text ← event.text
  return (if event.isWarning then "WARNING" else "DEBUG") ++ " " ++ event.channel ++ ": " ++ text

/-- The lines of those events that can be written. -/
def lines (events : List Event) : List String := events.filterMap (·.line.toOption)

end Event

/-- The event of a move: that it found the end. -/
def Stream.Pull.events (pull : Stream.Pull) (sequence : Sequence) : List Event :=
  if pull.foundEnd then [.exhausted sequence.numbers pull.state.index] else []

end Progressions
