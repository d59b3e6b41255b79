import Progressions.Stream.State

/-!
# Iterators

An iterator is a sequence with a state of its own.  Iterators over one sequence
do not affect each other.
-/

set_option autoImplicit false

namespace Progressions

structure Iterator where
  sequence : Sequence
  state : Stream.State

namespace Iterator

def ofSequence (sequence : Sequence) : Iterator := ⟨sequence, .fresh⟩

def exhausted (iterator : Iterator) : Bool := iterator.state.exhausted

/-- One move, and the iterator after it. -/
def pull (iterator : Iterator) : Stream.Pull × Iterator :=
  let pull := iterator.state.advance iterator.sequence
  (pull, { iterator with state := pull.state })

/-- The outcomes of a number of moves in a row, whatever they are. -/
def pulls : Nat → Iterator → List Stream.Pull × Iterator
  | 0, iterator => ([], iterator)
  | count + 1, iterator =>
    let (first, after) := iterator.pull
    let (others, last) := pulls count after
    (first :: others, last)

/-- At most a number of values, fewer when the sequence ends; an error loses them. -/
def take : Nat → Iterator → Except StreamError (List Number) × Iterator
  | 0, iterator => (.ok [], iterator)
  | count + 1, iterator =>
    match iterator.pull with
    | (⟨.error cause, _, _⟩, after) => (.error cause, after)
    | (⟨.ok none, _, _⟩, after) => (.ok [], after)
    | (⟨.ok (some value), _, _⟩, after) =>
      let (others, last) := take count after
      (others.map (value :: ·), last)

end Iterator

end Progressions
