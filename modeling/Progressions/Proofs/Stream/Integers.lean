import Mathlib.Tactic.Ring
import Progressions.Proofs.Stream.Continuation

/-!
# Integers in an arithmetic stream

Integers with an integer step are added exactly, so the terms are evenly spaced integers, however
large they become.
-/

set_option autoImplicit false

namespace Progressions

theorem Progression.term_int (step start : Int) (bound : Option Number) (count : Nat) :
    (⟨.arithmetic, .int step, bound⟩ : Progression).term (.int start) count =
      .ok (.int (start + count * step)) := by
  induction count with
  | zero => simp [term]
  | succ count inductionHypothesis =>
    rw [term_succ_of_ok inductionHypothesis]
    change Except.ok (Number.int (start + count * step + step)) = _
    congr 2
    push_cast
    ring

namespace Sequence

variable {sequence : Sequence} {values : List Number} {wholes : List Int} {step last : Int}
  {bound : Option Number}

theorem last_int (numbers : sequence.numbers = wholes.map .int)
    (isLast : wholes.getLast? = some last) : sequence.last = .int last := by
  have found : sequence.numbers.getLast? = some (.int last) := by
    rw [numbers, List.getLast?_map, isLast]
    rfl
  rw [List.getLast?_eq_some_getLast sequence.nonempty] at found
  exact Option.some.inj found

/-- What an arithmetic sequence of integers yields goes on evenly behind its numbers. -/
theorem yields_int (goesOn : sequence.progression = some ⟨.arithmetic, .int step, bound⟩)
    (numbers : sequence.numbers = wholes.map .int) (isLast : wholes.getLast? = some last)
    (yields : sequence.Yields values) (covers : sequence.numbers.length ≤ values.length) :
    values = (wholes ++ (List.range (values.length - wholes.length)).map
      fun place : Nat => last + (place + 1) * step).map .int := by
  have sameLength : sequence.numbers.length = wholes.length := by rw [numbers, List.length_map]
  rw [sameLength] at covers
  refine List.ext_getElem (by simp; omega) ?_
  intro place within _
  by_cases early : place < wholes.length
  · have inNumbers : place < sequence.numbers.length := by omega
    have given := reference_of_yields yields within
    rw [reference_of_lt inNumbers] at given
    rw [← Option.some.inj (Except.ok.inj given)]
    simp only [numbers, List.getElem_map, List.getElem_append_left early]
  · obtain ⟨terms, rfl⟩ := Nat.exists_eq_add_of_le (Nat.le_of_not_lt early)
    have counted : wholes.length + terms + 1 = sequence.numbers.length + (terms + 1) := by omega
    obtain ⟨reached, -⟩ := term_of_yields goesOn yields counted within
    rw [last_int numbers isLast, Progression.term_int] at reached
    rw [← Except.ok.inj reached]
    simp

end Sequence

end Progressions
