import Progressions.Proofs.Stream.Reference

/-!
# Streams taken further

A sequence may be given by more of its own values: once a run has handed out its numbers, the
sequence whose numbers are all the values so far goes on from the last of them as the first one
does, and so it hands out the same stream.
-/

set_option autoImplicit false

namespace Progressions

namespace Progression

variable {progression : Progression} {start value : Number}

theorem term_add {front : Nat} (reached : progression.term start front = .ok value) (count : Nat) :
    progression.term start (front + count) = progression.term value count := by
  induction count with
  | zero => exact reached
  | succ count inductionHypothesis =>
    rw [← Nat.add_assoc, term, inductionHypothesis]
    rfl

theorem endsWithin_add {front : Nat} (reached : progression.term start front = .ok value)
    (count : Nat) :
    progression.endsWithin start (front + count) =
      (progression.endsWithin start front || progression.endsWithin value count) := by
  rw [endsWithin, List.range_add, List.any_append, List.any_map]
  congr 1
  rw [endsWithin]
  congr 1
  funext place
  rw [Function.comp, Nat.add_assoc, term_add reached]

end Progression

namespace Sequence

variable {sequence : Sequence} {progression : Progression} {values : List Number} {count : Nat}

/-- The first moves give the values, one each. -/
def Yields (sequence : Sequence) (values : List Number) : Prop :=
  sequence.outcomes values.length = values.map (.ok ∘ some)

theorem reference_of_yields (yields : sequence.Yields values) {place : Nat}
    (within : place < values.length) :
    sequence.reference place = .ok (some values[place]) := by
  have given : (sequence.outcomes values.length)[place]? = (values.map (.ok ∘ some))[place]? := by
    rw [yields]
  rw [outcomes_eq_reference, List.getElem?_map, List.getElem?_map, List.getElem?_range within,
    List.getElem?_eq_getElem within] at given
  have same : (sequence.reference place).mapError StreamError.number = .ok (some values[place]) :=
    Option.some.inj given
  exact mapError_eq_ok_iff.mp same

theorem term_of_yields (goesOn : sequence.progression = some progression)
    (yields : sequence.Yields values) {place terms : Nat}
    (past : place + 1 = sequence.numbers.length + terms) (within : place < values.length) :
    progression.term sequence.last terms = .ok values[place] ∧
      progression.endsWithin sequence.last terms = false := by
  have given := reference_of_yields yields within
  cases terms with
  | zero =>
    have early : place < sequence.numbers.length := by omega
    rw [reference_of_lt early] at given
    have isLast : sequence.last = sequence.numbers[place] := by
      rw [last, List.getLast_eq_getElem]
      congr 1
      omega
    rw [← Option.some.inj (Except.ok.inj given), ← isLast]
    exact ⟨rfl, rfl⟩
  | succ terms =>
    obtain rfl : place = sequence.numbers.length + terms := by omega
    exact (reference_eq_value_iff goesOn).mp given

/-- A sequence given by the values of a run hands out the same stream. -/
theorem outcomes_of_yields {again : Sequence} (goesOn : sequence.progression = some progression)
    (yields : sequence.Yields values) (covers : sequence.numbers.length ≤ values.length)
    (sameNumbers : again.numbers = values) (sameProgression : again.progression = some progression)
    (moves : Nat) : again.outcomes moves = sequence.outcomes moves := by
  rw [outcomes_eq_reference, outcomes_eq_reference]
  refine List.map_congr_left fun place _ => congrArg _ ?_
  by_cases within : place < values.length
  · rw [reference_of_yields yields within]
    subst sameNumbers
    exact reference_of_lt within
  · obtain ⟨terms, rfl⟩ := Nat.exists_eq_add_of_le (Nat.le_of_not_lt within)
    obtain ⟨front, longer⟩ := Nat.exists_eq_add_of_le covers
    have positive : 0 < values.length := by
      rw [← sameNumbers]
      exact List.length_pos_iff.mpr again.nonempty
    have lastPlace : values.length - 1 < values.length := by omega
    have isLast : again.last = values[values.length - 1] := by
      subst sameNumbers
      exact List.getLast_eq_getElem _
    have counted : values.length - 1 + 1 = sequence.numbers.length + front := by omega
    obtain ⟨reached, inside⟩ := term_of_yields goesOn yields counted lastPlace
    have ends := Progression.endsWithin_add reached (terms + 1)
    have moved := Progression.term_add reached (terms + 1)
    rw [inside, Bool.false_or, ← isLast] at ends
    rw [← isLast] at moved
    have here := reference_term sameProgression terms
    have there := reference_term goesOn (front + terms)
    rw [sameNumbers, ← ends, ← moved] at here
    rw [← Nat.add_assoc, ← longer] at there
    rw [here, there, Nat.add_assoc front]

end Sequence

end Progressions
