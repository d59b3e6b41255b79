import Progressions.Proofs.Result
import Progressions.Stream.Iterator

/-!
# The stream of a sequence

What a sequence describes, without a state: its numbers in order, then the terms that the step
leads to from the last number, cut before the first term beyond the bound, then nothing.

`Stands` is the invariant that ties a state to the number of moves made from a fresh one.  A move
from a standing state gives the element of the stream at that place and leaves a standing state
(`advance_stands`), so every run hands out the stream, errors included.
-/

set_option autoImplicit false

namespace Progressions

namespace Progression

/-- The number that the step leads to from a start after a number of times. -/
def term (progression : Progression) (start : Number) : Nat → Except NumberError Number
  | 0 => .ok start
  | count + 1 => do progression.next (← progression.term start count)

def isBeyond (progression : Progression) (value : Number) : Bool :=
  match progression.bound with
  | none => false
  | some bound => progression.passes value bound

/-- One of the first terms behind the start lies beyond the bound. -/
def endsWithin (progression : Progression) (start : Number) (count : Nat) : Bool :=
  (List.range count).any fun place =>
    match progression.term start (place + 1) with
    | .ok value => progression.isBeyond value
    | .error _ => false

def unbounded (progression : Progression) : Progression := { progression with bound := none }

variable {progression : Progression} {start : Number}

theorem term_succ_of_ok {count : Nat} {value : Number}
    (reached : progression.term start count = .ok value) :
    progression.term start (count + 1) = progression.next value := by
  rw [term, reached]
  rfl

theorem term_of_error {count : Nat} {cause : NumberError}
    (failed : progression.term start count = .error cause) (further : Nat) :
    progression.term start (count + further) = .error cause := by
  induction further with
  | zero => exact failed
  | succ further inductionHypothesis =>
    rw [← Nat.add_assoc, term, inductionHypothesis]
    rfl

theorem endsWithin_succ_of_ok {count : Nat} {value : Number}
    (reached : progression.term start (count + 1) = .ok value) :
    progression.endsWithin start (count + 1) =
      (progression.endsWithin start count || progression.isBeyond value) := by
  simp [endsWithin, List.range_succ, reached]

theorem endsWithin_of_error {count : Nat} {cause : NumberError}
    (failed : progression.term start (count + 1) = .error cause) (further : Nat) :
    progression.endsWithin start (count + further) = progression.endsWithin start count := by
  induction further with
  | zero => rfl
  | succ further inductionHypothesis =>
    have failedLater := term_of_error failed further
    rw [Nat.add_right_comm] at failedLater
    rw [← inductionHypothesis, ← Nat.add_assoc]
    simp [endsWithin, List.range_succ, failedLater]

theorem endsWithin_mono {count : Nat} (ended : progression.endsWithin start count = true)
    (further : Nat) : progression.endsWithin start (count + further) = true := by
  simp only [endsWithin, List.any_eq_true, List.mem_range] at ended ⊢
  obtain ⟨place, early, beyond⟩ := ended
  exact ⟨place, by omega, beyond⟩

theorem term_unbounded (count : Nat) :
    progression.unbounded.term start count = progression.term start count := by
  induction count with
  | zero => rfl
  | succ count inductionHypothesis =>
    rw [term, inductionHypothesis]
    rfl

theorem endsWithin_unbounded (count : Nat) :
    progression.unbounded.endsWithin start count = false := by
  simp only [endsWithin, List.any_eq_false]
  intro place _
  split
  · simp [isBeyond, unbounded]
  · simp

end Progression

namespace Sequence

/-- The element of the stream at a place: nothing behind the end, and an error where the terms
cannot be computed any further. -/
def reference (sequence : Sequence) (place : Nat) : Except NumberError (Option Number) :=
  match sequence.numbers[place]? with
  | some number => .ok (some number)
  | none =>
    match sequence.progression with
    | none => .ok none
    | some progression =>
      let count := place + 1 - sequence.numbers.length
      if progression.endsWithin sequence.last count then .ok none
      else (progression.term sequence.last count).map some

/-- What a number of moves of a fresh iterator give. -/
def outcomes (sequence : Sequence) (count : Nat) : List (Except StreamError (Option Number)) :=
  ((Iterator.ofSequence sequence).pulls count).1.map (·.outcome)

def unbounded (sequence : Sequence) : Sequence :=
  { sequence with progression := sequence.progression.map (·.unbounded) }

/-- The state that a fresh one becomes by a number of moves.  A progression stands at the last
term it handed out, also while its moves fail, and at the first term beyond the bound for ever. -/
inductive Stands (sequence : Sequence) : Nat → Stream.State → Prop
  | replaying {count : Nat} (within : count ≤ sequence.numbers.length) :
    Stands sequence count ⟨count, none, .replaying⟩
  | ended {count : Nat} (itemized : sequence.progression = none)
      (past : sequence.numbers.length < count) :
    Stands sequence count ⟨sequence.numbers.length, none, .exhausted⟩
  | progressing {progression : Progression} {value : Number} (terms stalled : Nat)
      (goesOn : sequence.progression = some progression)
      (reached : progression.term sequence.last terms = .ok value)
      (inside : progression.endsWithin sequence.last terms = false)
      (stalls : 0 < stalled → ∃ cause, progression.next value = .error cause)
      (moved : 0 < terms + stalled) :
    Stands sequence (sequence.numbers.length + terms + stalled)
      ⟨sequence.numbers.length, some value, .progressing⟩
  | passed {progression : Progression} {value : Number} (terms calls : Nat)
      (goesOn : sequence.progression = some progression)
      (reached : progression.term sequence.last (terms + 1) = .ok value)
      (inside : progression.endsWithin sequence.last terms = false)
      (beyond : progression.isBeyond value = true) :
    Stands sequence (sequence.numbers.length + terms + calls + 1)
      ⟨sequence.numbers.length, some value, .exhausted⟩

variable {sequence : Sequence}

theorem reference_of_lt {place : Nat} (within : place < sequence.numbers.length) :
    sequence.reference place = .ok (some sequence.numbers[place]) := by
  rw [reference, List.getElem?_eq_getElem within]

theorem reference_itemized {place : Nat} (itemized : sequence.progression = none)
    (past : sequence.numbers.length ≤ place) : sequence.reference place = .ok none := by
  rw [reference, List.getElem?_eq_none past]
  simp only [itemized]

theorem reference_term {progression : Progression}
    (goesOn : sequence.progression = some progression) (terms : Nat) :
    sequence.reference (sequence.numbers.length + terms) =
      if progression.endsWithin sequence.last (terms + 1) then .ok none
      else (progression.term sequence.last (terms + 1)).map some := by
  have past : sequence.numbers[sequence.numbers.length + terms]? = none :=
    List.getElem?_eq_none (Nat.le_add_right _ _)
  have count : sequence.numbers.length + terms + 1 - sequence.numbers.length = terms + 1 := by
    omega
  rw [reference, past]
  simp only [goesOn, count]

theorem reference_eq_value_iff {progression : Progression} {terms : Nat} {value : Number}
    (goesOn : sequence.progression = some progression) :
    sequence.reference (sequence.numbers.length + terms) = .ok (some value) ↔
      progression.term sequence.last (terms + 1) = .ok value ∧
        progression.endsWithin sequence.last (terms + 1) = false := by
  rw [reference_term goesOn]
  cases progression.endsWithin sequence.last (terms + 1) with
  | true => simp
  | false =>
    cases progression.term sequence.last (terms + 1) with
    | ok reached => simp [Except.map]
    | error cause => simp [Except.map]

/-! ## One move -/

theorem progress_of_error {progression : Progression} {value : Number} {cause : NumberError}
    (goesOn : sequence.progression = some progression) (index : Int)
    (failing : progression.next value = .error cause) :
    Stream.State.progress ⟨index, some value, .progressing⟩ sequence =
      ⟨.error (.number cause), ⟨index, some value, .progressing⟩, false⟩ := by
  simp [Stream.State.progress, nextValue, goesOn, failing]

theorem progress_of_ok {progression : Progression} {value moved : Number}
    (goesOn : sequence.progression = some progression) (index : Int)
    (moving : progression.next value = .ok moved) :
    Stream.State.progress ⟨index, some value, .progressing⟩ sequence =
      if progression.isBeyond moved then ⟨.ok none, ⟨index, some moved, .exhausted⟩, true⟩
      else ⟨.ok (some moved), ⟨index, some moved, .progressing⟩, false⟩ := by
  have bounded : sequence.bound = progression.bound := by simp [bound, goesOn]
  cases limited : progression.bound with
  | none =>
    simp [Stream.State.progress, nextValue, goesOn, moving, bounded, limited,
      Progression.isBeyond]
  | some limit =>
    cases beyond : progression.passes moved limit <;>
      simp [Stream.State.progress, nextValue, exceedsBound, goesOn, moving, bounded, limited,
        Progression.isBeyond, beyond, Stream.State.exhaust]

/-- What a move from a standing state has to give: the element of the stream at its place, and a
state that stands one place further. -/
def GivesElement (sequence : Sequence) (place : Nat) (pull : Stream.Pull) : Prop :=
  pull.outcome = (sequence.reference place).mapError .number ∧
    Stands sequence (place + 1) pull.state

section Progressing

variable {progression : Progression} {value : Number} {terms : Nat}

theorem reference_failing {cause : NumberError}
    (goesOn : sequence.progression = some progression)
    (reached : progression.term sequence.last terms = .ok value)
    (inside : progression.endsWithin sequence.last terms = false)
    (failing : progression.next value = .error cause) (stalled : Nat) :
    sequence.reference (sequence.numbers.length + terms + stalled) = .error cause := by
  have failed := Progression.term_succ_of_ok reached
  rw [failing] at failed
  have failedLater := Progression.term_of_error failed stalled
  have insideLater := Progression.endsWithin_of_error failed (stalled + 1)
  have referred := reference_term goesOn (terms + stalled)
  rw [Nat.add_assoc terms, insideLater, inside, Nat.add_comm stalled, ← Nat.add_assoc terms,
    failedLater, ← Nat.add_assoc] at referred
  exact referred

theorem progress_failing (stalled : Nat) {cause : NumberError}
    (goesOn : sequence.progression = some progression)
    (reached : progression.term sequence.last terms = .ok value)
    (inside : progression.endsWithin sequence.last terms = false)
    (failing : progression.next value = .error cause) :
    GivesElement sequence (sequence.numbers.length + terms + stalled)
      (Stream.State.progress ⟨sequence.numbers.length, some value, .progressing⟩ sequence) := by
  rw [progress_of_error goesOn _ failing, GivesElement,
    reference_failing goesOn reached inside failing]
  refine ⟨rfl, ?_⟩
  have again (_ : 0 < stalled + 1) : ∃ cause, progression.next value = .error cause :=
    ⟨cause, failing⟩
  have stands := Stands.progressing terms (stalled + 1) goesOn reached inside again (by omega)
  simpa only [Nat.add_assoc] using stands

theorem progress_moving {moved : Number} (goesOn : sequence.progression = some progression)
    (reached : progression.term sequence.last terms = .ok value)
    (inside : progression.endsWithin sequence.last terms = false)
    (moving : progression.next value = .ok moved) :
    GivesElement sequence (sequence.numbers.length + terms)
      (Stream.State.progress ⟨sequence.numbers.length, some value, .progressing⟩ sequence) := by
  have reachedNext := Progression.term_succ_of_ok reached
  rw [moving] at reachedNext
  have endsNext := Progression.endsWithin_succ_of_ok reachedNext
  rw [inside, Bool.false_or] at endsNext
  have referred := reference_term goesOn terms
  rw [endsNext, reachedNext] at referred
  rw [progress_of_ok goesOn _ moving, GivesElement, referred]
  cases beyond : progression.isBeyond moved with
  | true => exact ⟨rfl, .passed terms 0 goesOn reachedNext inside beyond⟩
  | false =>
    rw [beyond] at endsNext
    refine ⟨rfl, .progressing (terms + 1) 0 goesOn reachedNext endsNext ?_ (by omega)⟩
    intro stillStalled
    omega

theorem progress_stands (stalled : Nat) (goesOn : sequence.progression = some progression)
    (reached : progression.term sequence.last terms = .ok value)
    (inside : progression.endsWithin sequence.last terms = false)
    (stalls : 0 < stalled → ∃ cause, progression.next value = .error cause) :
    GivesElement sequence (sequence.numbers.length + terms + stalled)
      (Stream.State.progress ⟨sequence.numbers.length, some value, .progressing⟩ sequence) := by
  cases moving : progression.next value with
  | error cause => exact progress_failing stalled goesOn reached inside moving
  | ok moved =>
    have first : stalled = 0 := by
      by_cases again : 0 < stalled
      · obtain ⟨cause, failing⟩ := stalls again
        rw [moving] at failing
        cases failing
      · omega
    subst first
    exact progress_moving goesOn reached inside moving

end Progressing

theorem advance_number {count : Nat} (left : count < sequence.numbers.length) :
    Stream.State.advance ⟨count, none, .replaying⟩ sequence =
      ⟨.ok (some sequence.numbers[count]), ⟨(count + 1 : Nat), none, .replaying⟩, false⟩ := by
  simp [Stream.State.advance, left]

theorem advance_itemized (itemized : sequence.progression = none) :
    Stream.State.advance ⟨sequence.numbers.length, none, .replaying⟩ sequence =
      ⟨.ok none, ⟨sequence.numbers.length, none, .exhausted⟩, true⟩ := by
  simp [Stream.State.advance, hasEllipsis, itemized, Stream.State.exhaust]

/-- When the numbers are used up, the same move goes on from the last of them. -/
theorem advance_switching {progression : Progression}
    (goesOn : sequence.progression = some progression) :
    Stream.State.advance ⟨sequence.numbers.length, none, .replaying⟩ sequence =
      Stream.State.progress ⟨sequence.numbers.length, some sequence.last, .progressing⟩
        sequence := by
  have notNegative : ¬ (sequence.numbers.length : Int) < 0 := by omega
  simp [Stream.State.advance, hasEllipsis, goesOn, notNegative]

theorem advance_replaying {count : Nat} (within : count ≤ sequence.numbers.length) :
    GivesElement sequence count (Stream.State.advance ⟨count, none, .replaying⟩ sequence) := by
  by_cases left : count < sequence.numbers.length
  · rw [advance_number left, GivesElement, reference_of_lt left]
    exact ⟨rfl, .replaying left⟩
  · have replayed : count = sequence.numbers.length := by omega
    subst replayed
    cases goesOn : sequence.progression with
    | none =>
      rw [advance_itemized goesOn, GivesElement, reference_itemized goesOn (Nat.le_refl _)]
      exact ⟨rfl, .ended goesOn (by omega)⟩
    | some progression =>
      have start : progression.term sequence.last 0 = .ok sequence.last := rfl
      rw [advance_switching goesOn]
      exact progress_stands 0 goesOn start rfl (by omega)

/-- The stream has ended for good at the first term beyond the bound. -/
theorem reference_passed {progression : Progression} {value : Number} {terms : Nat}
    (goesOn : sequence.progression = some progression)
    (reached : progression.term sequence.last (terms + 1) = .ok value)
    (beyond : progression.isBeyond value = true) (calls : Nat) :
    sequence.reference (sequence.numbers.length + terms + calls) = .ok none := by
  have ended : progression.endsWithin sequence.last (terms + 1) = true := by
    rw [Progression.endsWithin_succ_of_ok reached, beyond, Bool.or_true]
  have endedLater := Progression.endsWithin_mono ended calls
  have referred := reference_term goesOn (terms + calls)
  rw [Nat.add_right_comm, endedLater, if_pos rfl, ← Nat.add_assoc] at referred
  exact referred

/-- Every move from a standing state gives the element of the stream at its place. -/
theorem advance_stands {count : Nat} {state : Stream.State} (stands : Stands sequence count state) :
    GivesElement sequence count (state.advance sequence) := by
  cases stands with
  | replaying within => exact advance_replaying within
  | ended itemized past =>
    rw [GivesElement, reference_itemized itemized (by omega)]
    exact ⟨rfl, .ended itemized (by omega)⟩
  | progressing terms stalled goesOn reached inside stalls moved =>
    exact progress_stands stalled goesOn reached inside stalls
  | passed terms calls goesOn reached inside beyond =>
    rw [GivesElement, Nat.add_assoc, reference_passed goesOn reached beyond]
    exact ⟨rfl, .passed terms (calls + 1) goesOn reached inside beyond⟩

/-! ## Runs -/

theorem pulls_stands (length : Nat) {count : Nat} {state : Stream.State}
    (stands : Stands sequence count state) :
    (Iterator.pulls length ⟨sequence, state⟩).1.map (·.outcome) =
      (List.range length).map fun place =>
        (sequence.reference (count + place)).mapError .number := by
  induction length generalizing count state with
  | zero => rfl
  | succ length inductionHypothesis =>
    obtain ⟨gave, standsAfter⟩ := advance_stands stands
    have later := inductionHypothesis standsAfter
    simp only [Iterator.pulls, Iterator.pull, List.map_cons, gave, later, List.range_succ_eq_map,
      List.map_map, Nat.add_zero]
    congr 1
    refine List.map_congr_left fun place _ => ?_
    simp only [Function.comp, Nat.add_right_comm, Nat.add_assoc]

theorem pulls_stand (length : Nat) {count : Nat} {state : Stream.State}
    (stands : Stands sequence count state) :
    ∃ after, (Iterator.pulls length ⟨sequence, state⟩).2 = ⟨sequence, after⟩ ∧
      Stands sequence (count + length) after := by
  induction length generalizing count state with
  | zero => exact ⟨state, rfl, stands⟩
  | succ length inductionHypothesis =>
    obtain ⟨-, standsNext⟩ := advance_stands stands
    obtain ⟨after, pulled, standsAfter⟩ := inductionHypothesis standsNext
    refine ⟨after, pulled, ?_⟩
    rw [Nat.add_comm length, ← Nat.add_assoc]
    exact standsAfter

theorem outcomes_eq_reference (sequence : Sequence) (count : Nat) :
    sequence.outcomes count =
      (List.range count).map fun place => (sequence.reference place).mapError .number := by
  have start : Stands sequence 0 .fresh := .replaying (Nat.zero_le _)
  have run := pulls_stands count start
  simp only [Nat.zero_add] at run
  exact run

theorem outcomes_succ (sequence : Sequence) (count : Nat) :
    sequence.outcomes (count + 1) =
      sequence.outcomes count ++ [(sequence.reference count).mapError .number] := by
  simp only [outcomes_eq_reference, List.range_succ, List.map_append, List.map_cons, List.map_nil]

/-! ## The end of the stream -/

/-- The stream repeats its first element that is not a value. -/
theorem reference_succ {place : Nat}
    (stopped : ∀ value, sequence.reference place ≠ .ok (some value)) :
    sequence.reference (place + 1) = sequence.reference place := by
  have past : sequence.numbers.length ≤ place := by
    by_cases within : place < sequence.numbers.length
    · exact absurd (reference_of_lt within) (stopped _)
    · omega
  obtain ⟨terms, rfl⟩ := Nat.exists_eq_add_of_le past
  cases goesOn : sequence.progression with
  | none => rw [reference_itemized goesOn past, reference_itemized goesOn (by omega)]
  | some progression =>
    have here := reference_term goesOn terms
    have next := reference_term goesOn (terms + 1)
    rw [← Nat.add_assoc] at next
    cases ended : progression.endsWithin sequence.last (terms + 1) with
    | true =>
      rw [Progression.endsWithin_mono ended 1] at next
      rw [here, next, ended]
      rfl
    | false =>
      cases reached : progression.term sequence.last (terms + 1) with
      | ok value =>
        rw [ended, reached] at here
        exact absurd here (stopped value)
      | error cause =>
        have insideHere := Progression.endsWithin_of_error reached 1
        have insideNext := Progression.endsWithin_of_error reached 2
        rw [ended] at insideHere
        rw [← insideHere] at insideNext
        rw [ended, reached] at here
        rw [insideNext, Progression.term_of_error reached 1] at next
        rw [here, next]

theorem nothing_stays {place : Nat} (nothing : sequence.reference place = .ok none)
    (further : Nat) : sequence.reference (place + further) = .ok none := by
  induction further with
  | zero => exact nothing
  | succ further inductionHypothesis =>
    rw [← Nat.add_assoc, reference_succ, inductionHypothesis]
    intro value
    rw [inductionHypothesis]
    simp

theorem unbounded_reference {place : Nat} {value : Number}
    (given : sequence.reference place = .ok (some value)) :
    sequence.unbounded.reference place = .ok (some value) := by
  by_cases within : place < sequence.numbers.length
  · rw [← given, reference_of_lt within]
    exact @reference_of_lt sequence.unbounded place within
  · obtain ⟨terms, rfl⟩ := Nat.exists_eq_add_of_le (Nat.le_of_not_lt within)
    cases goesOn : sequence.progression with
    | none =>
      rw [reference_itemized goesOn (by omega)] at given
      cases given
    | some progression =>
      have goesOnUnbounded : sequence.unbounded.progression = some progression.unbounded := by
        simp [unbounded, goesOn]
      obtain ⟨reached, -⟩ := (reference_eq_value_iff goesOn).mp given
      have reachedUnbounded : progression.unbounded.term sequence.unbounded.last (terms + 1) =
          .ok value := (Progression.term_unbounded _).trans reached
      exact (reference_eq_value_iff goesOnUnbounded).mpr
        ⟨reachedUnbounded, Progression.endsWithin_unbounded _⟩

theorem ending_stays (front : List (Except StreamError (Option Number)))
    {ending : Except StreamError (Option Number)} {count : Nat}
    (notValue : ∀ value, ending ≠ .ok (some value)) (behind : front.length < count)
    (given : sequence.outcomes count = front ++ List.replicate (count - front.length) ending) :
    (sequence.reference count).mapError .number = ending := by
  obtain ⟨before, rfl⟩ := Nat.exists_eq_add_of_lt behind
  rw [outcomes_succ, Nat.add_assoc, Nat.add_sub_cancel_left, List.replicate_succ',
    ← List.append_assoc] at given
  have here := List.head_eq_of_cons_eq (List.append_inj_right' given rfl)
  have stopped (value : Number) :
      sequence.reference (front.length + before) ≠ .ok (some value) := by
    intro found
    rw [found] at here
    exact notValue value here.symm
  rw [reference_succ stopped, here]

/-- Every run consists of values, which the sequence without its bound has too, and of one
outcome that is not a value, over and over. -/
theorem values_then_ending (sequence : Sequence) (count : Nat) :
    ∃ (values : List Number) (ending : Except StreamError (Option Number)),
      values.length ≤ count ∧ (∀ value, ending ≠ .ok (some value)) ∧
      sequence.outcomes count =
        values.map (.ok ∘ some) ++ List.replicate (count - values.length) ending ∧
      sequence.unbounded.outcomes values.length = values.map (.ok ∘ some) := by
  induction count with
  | zero => exact ⟨[], .ok none, Nat.le_refl 0, by simp, rfl, rfl⟩
  | succ count inductionHypothesis =>
    obtain ⟨values, ending, short, notValue, given, givenUnbounded⟩ := inductionHypothesis
    have next := sequence.outcomes_succ count
    rcases Nat.lt_or_eq_of_le short with behind | all
    · have stays := ending_stays (values.map (.ok ∘ some)) notValue
        (by simpa using behind) (by simpa using given)
      refine ⟨values, ending, by omega, notValue, ?_, givenUnbounded⟩
      rw [next, given, stays, List.append_assoc, ← List.replicate_succ',
        Nat.sub_add_comm short]
    · subst all
      rw [given, Nat.sub_self, List.replicate_zero, List.append_nil] at next
      cases here : sequence.reference values.length with
      | error cause =>
        rw [here] at next
        refine ⟨values, .error (.number cause), by omega, by simp, ?_, givenUnbounded⟩
        rw [next]
        simp
      | ok found =>
        rw [here] at next
        cases found with
        | none =>
          refine ⟨values, .ok none, by omega, by simp, ?_, givenUnbounded⟩
          rw [next]
          simp
        | some value =>
          refine ⟨values ++ [value], ending, by simp, notValue, ?_, ?_⟩
          · rw [next]
            simp
          · rw [List.length_append, List.length_singleton, outcomes_succ, givenUnbounded,
              unbounded_reference here]
            simp

/-- A fresh iterator hands out the stream: the numbers first and whole, whatever the bound, then
the terms, and what is not a value only once no value comes any more.  The values are the first
ones of the sequence without its bound. -/
theorem outcomes_follow_reference (sequence : Sequence) (count : Nat) :
    sequence.outcomes count =
        (List.range count).map (fun place => (sequence.reference place).mapError .number) ∧
      (sequence.outcomes count).take sequence.numbers.length =
        (sequence.numbers.take count).map (.ok ∘ some) ∧
      ∃ (values : List Number) (ending : Except StreamError (Option Number)),
        values.length ≤ count ∧ (∀ value, ending ≠ .ok (some value)) ∧
        sequence.outcomes count =
          values.map (.ok ∘ some) ++ List.replicate (count - values.length) ending ∧
        sequence.unbounded.outcomes values.length = values.map (.ok ∘ some) := by
  refine ⟨outcomes_eq_reference sequence count, ?_, values_then_ending sequence count⟩
  rw [outcomes_eq_reference, ← List.map_take, List.take_range]
  refine List.ext_getElem (by simp [Nat.min_comm]) ?_
  intro place within _
  have early : place < sequence.numbers.length := by
    simp at within
    omega
  simp [reference_of_lt early]

end Sequence

end Progressions
