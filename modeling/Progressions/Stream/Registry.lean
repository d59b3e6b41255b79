import Progressions.Interpretation

/-!
# Named iterators

A registry holds iterators under names, and a command creates one or works with
one.  Each iterator moves only by the commands on its own name.
-/

set_option autoImplicit false

namespace Progressions

inductive Ask where
  | call
  /-- One value; at the end there is a fault instead. -/
  | next
  /-- Whether iterating over the iterator is using the iterator itself. -/
  | iteratesItself
  | exhausted
  | display
  | drain
  | sequence
  | take (count : Nat)

inductive Command where
  /-- An iterator over the sequence of a text. -/
  | create (name source : String)
  /-- An iterator of its own over the sequence of another. -/
  | share (name other : String)
  | ask (name : String) (question : Ask)

inductive Reply where
  | truth (value : Bool)
  | value (number : Option Number)
  | text (text : String)
  | numbers (numbers : List Number)
  | sequence (sequence : Sequence)

/-- Iterators by name, one for each name. -/
abbrev Registry := List (String × Iterator)

/-- The reply to a question, and the iterator after it.  Draining gives up after a budget of
values, which only matters to a sequence that does not end. -/
def Iterator.answer (iterator : Iterator) (budget : Nat) :
    Ask → Except Fault Reply × Iterator
  | .call =>
    let (pull, after) := iterator.pull
    ((pull.outcome.map .value).mapError .stream, after)
  | .next =>
    let (pull, after) := iterator.pull
    match pull.outcome with
    | .error cause => (.error (.stream cause), after)
    | .ok none => (.error .endOfStream, after)
    | .ok (some value) => (.ok (.value (some value)), after)
  | .iteratesItself => (.ok (.truth true), iterator)
  | .exhausted => (.ok (.truth iterator.exhausted), iterator)
  | .display => ((iterator.display.map .text).mapError .number, iterator)
  | .drain =>
    let (values, after) := iterator.take budget
    ((values.map .numbers).mapError .stream, after)
  | .sequence => (.ok (.sequence iterator.sequence), iterator)
  | .take count =>
    let (values, after) := iterator.take count
    ((values.map .numbers).mapError .stream, after)

namespace Registry

def find? (registry : Registry) (name : String) : Option Iterator := registry.lookup name

def bind (registry : Registry) (name : String) (iterator : Iterator) : Registry :=
  match registry with
  | [] => [(name, iterator)]
  | (other, kept) :: rest =>
    if other = name then (name, iterator) :: rest
    else (other, kept) :: Registry.bind rest name iterator

def run (registry : Registry) (budget : Nat) : Command → Except Fault Reply × Registry
  | .create name source =>
    match Iterator.ofText source with
    | .error fault => (.error fault, registry)
    | .ok iterator => (.ok (.truth true), registry.bind name iterator)
  | .share name other =>
    match registry.find? other with
    | none => (.error (.unknownName other), registry)
    | some iterator => (.ok (.truth true), registry.bind name (.ofSequence iterator.sequence))
  | .ask name question =>
    match registry.find? name with
    | none => (.error (.unknownName name), registry)
    | some iterator =>
      let (reply, after) := iterator.answer budget question
      (reply, registry.bind name after)

/-- The replies to a script of commands, each on the registry that the one before left. -/
def runAll (registry : Registry) (budget : Nat) : List Command → List (Except Fault Reply)
  | [] => []
  | command :: rest =>
    let (reply, after) := registry.run budget command
    reply :: runAll after budget rest

end Registry

end Progressions
