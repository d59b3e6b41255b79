import Progressions.Proofs.CommandLine.Rejection
import Progressions.Proofs.Stream.Description
import Progressions.Request

/-!
# The ways in agree

A text can be described, iterated, printed and described on the command line.  All four come to one
verdict: the text is a sequence, or it is rejected for one reason, or one fault stands in place of
both.  The description of a sequence equals itself and holds all that the iterator depends on.
-/

set_option autoImplicit false

namespace Progressions

/-! ## Descriptions equal themselves -/

namespace Value

theorem itemsEqual_numbers {numbers : List Number}
    (comparable : ∀ number ∈ numbers, number ≠ .float .nan) :
    itemsEqual (numbers.map .number) (numbers.map .number) = true := by
  induction numbers with
  | nil => rfl
  | cons number numbers inductionHypothesis =>
    have first := Number.equals_self_iff.mpr (comparable number List.mem_cons_self)
    have later := inductionHypothesis fun other member =>
      comparable other (List.mem_cons_of_mem number member)
    simp only [List.map_cons, itemsEqual, equals, first, later, Bool.and_self]

theorem ofOption_equals {value : Option Number}
    (comparable : ∀ number ∈ value, number ≠ .float .nan) :
    (ofOption value).equals (ofOption value) = true := by
  cases value with
  | none => rfl
  | some number =>
    simp only [ofOption, equals]
    exact Number.equals_self_iff.mpr (comparable number rfl)

end Value

namespace Sequence

variable {source : String} {sequence : Sequence}

/-- Nothing in the sequence is not-a-number. -/
structure Comparable (sequence : Sequence) : Prop where
  numbers : ∀ number ∈ sequence.numbers, number ≠ .float .nan
  bound : ∀ bound ∈ sequence.bound, bound ≠ .float .nan
  step : ∀ step ∈ sequence.step, step ≠ .float .nan

theorem comparable_of_ofText (built : ofText source = .ok sequence) : sequence.Comparable := by
  obtain ⟨specification, accepted, built⟩ := exists_specification_of_ofText built
  obtain ⟨sentence, -, numbers, -, bound⟩ := Specification.sentence_of_ofText accepted
  have counted := Specification.wellCounted_of_ofText
    (Specification.within_of_ofText accepted) accepted
  obtain ⟨sameNumbers, progression⟩ := ofSpecification_eq_ok built
  refine ⟨?_, ?_, ?_⟩
  · rw [sameNumbers, numbers]
    exact sentence.number_ne_nan
  · rcases progression with ⟨-, itemized⟩ | ⟨classification, -, -, goesOn⟩
    · simp [Sequence.bound, itemized]
    · simp only [Sequence.bound, goesOn, Option.bind_some, bound]
      exact sentence.bound_ne_nan
  · rcases progression with ⟨-, itemized⟩ | ⟨classification, hasEllipsis, classified, goesOn⟩
    · simp [Sequence.step, itemized]
    · intro step present
      simp only [Sequence.step, goesOn, Option.map_some, Option.mem_some_iff] at present
      rw [← present]
      exact Pattern.classified_step_ne_nan (counted.enough hasEllipsis) classified

theorem describe_equals (comparable : sequence.Comparable) :
    sequence.describe.equals sequence.describe = true := by
  have numbers := Value.itemsEqual_numbers comparable.numbers
  have bound := Value.ofOption_equals comparable.bound
  have step := Value.ofOption_equals comparable.step
  cases hasEllipsis : sequence.hasEllipsis <;>
    simp [describe, hasEllipsis, Value.equals, Value.entriesEqual, numbers, bound, step]

end Sequence

/-! ## Verdicts -/

/-- A request with a text and nothing else. -/
def Request.ofText (entryPoint : EntryPoint) (source : String) : Request :=
  ⟨entryPoint, [.plain (.text source)], .plain .null⟩

inductive Verdict where
  | described
  | rejected
  | failed

def Verdict.ofResponse : Except Fault Response → Verdict
  | .ok response => if response.isOk then .described else .rejected
  | .error _ => .failed

/-- The response, the iterator and both runs of the command line stand for the verdict. -/
def Concur (source : String) : Verdict → Prop
  | .described => ∃ payload iterator,
      (Request.ofText .describe source).respond.1 = .ok ⟨200, "OK", some payload⟩ ∧
      (Request.ofText .iterate source).iterator.1 = .ok iterator ∧
      iterator.sequence.describe = payload ∧ payload.equals payload = true ∧
      ∀ count, (iterator.pulls count).1.map (·.outcome) =
        (payload.outcomes count).map (.mapError .number)
  | .rejected => ∃ reason fault,
      (Request.ofText .describe source).respond.1 =
        .ok ⟨400, "Parse fail: " ++ reason, none⟩ ∧
      (Request.ofText .iterate source).iterator.1 = .error fault ∧
      fault.isRejection = true ∧ fault.message = reason ∧
      ∀ (fuel : Nat) (patience : Option Nat),
        CommandLine.run fuel ["--", source] patience =
          some ⟨.ok 2, "", "numseq: " ++ reason ++ "\n"⟩ ∧
        CommandLine.run fuel ["--describe", "--", source] patience =
          some ⟨.ok 2, "", "numseq: Parse fail: " ++ reason ++ "\n"⟩
  | .failed => ∃ fault,
      (Request.ofText .describe source).respond.1 = .error fault ∧
      (Request.ofText .iterate source).iterator.1 = .error fault ∧ fault.isRejection = false

section Verdicts

variable {source : String}

theorem respond_ofText (source : String) :
    (Request.ofText .describe source).respond.1 = Response.ofText source := rfl

theorem iterator_ofText (source : String) :
    (Request.ofText .iterate source).iterator.1 = Iterator.ofText source := rfl

theorem concur_of_sequence {sequence : Sequence} (built : Sequence.ofText source = .ok sequence) :
    Concur source .described := by
  refine ⟨sequence.describe, .ofSequence sequence, ?_, ?_, rfl, ?_, ?_⟩
  · rw [respond_ofText, Response.ofText_sequence built]
  · rw [iterator_ofText, Iterator.ofText, built]
    rfl
  · exact Sequence.describe_equals (Sequence.comparable_of_ofText built)
  · intro count
    exact (sequence.outcomes_describe count).symm

theorem concur_of_rejection {fault : Fault} (failed : Sequence.ofText source = .error fault)
    (isRejection : fault.isRejection = true) : Concur source .rejected := by
  refine ⟨fault.message, fault, ?_, ?_, isRejection, rfl, ?_⟩
  · rw [respond_ofText, Response.ofText_rejection failed isRejection]
  · rw [iterator_ofText, Iterator.ofText, failed]
    rfl
  · intro fuel patience
    exact ⟨CommandLine.run_rejection failed isRejection fuel patience,
      CommandLine.run_describe_rejection failed isRejection fuel patience⟩

theorem concur_of_fault {fault : Fault} (failed : Sequence.ofText source = .error fault)
    (noRejection : fault.isRejection = false) : Concur source .failed := by
  refine ⟨fault, ?_, ?_, noRejection⟩
  · rw [respond_ofText, Response.ofText_fault failed noRejection]
  · rw [iterator_ofText, Iterator.ofText, failed]
    rfl

/-- The response alone tells the verdict. -/
theorem eq_ofResponse_of_concur {verdict : Verdict} (concurs : Concur source verdict) :
    verdict = .ofResponse (Response.ofText source) := by
  rw [← respond_ofText]
  cases verdict with
  | described =>
    obtain ⟨payload, iterator, response, -⟩ := concurs
    rw [response]
    rfl
  | rejected =>
    obtain ⟨reason, fault, response, -⟩ := concurs
    rw [response]
    rfl
  | failed =>
    obtain ⟨fault, response, -⟩ := concurs
    rw [response]
    rfl

/-- The ways in agree on every text, and come to one verdict only. -/
theorem ways_in_agree (source : String) : ∃! verdict, Concur source verdict := by
  have unique (left right : Verdict) (leftConcurs : Concur source left)
      (rightConcurs : Concur source right) : left = right :=
    (eq_ofResponse_of_concur leftConcurs).trans (eq_ofResponse_of_concur rightConcurs).symm
  refine existsUnique_of_exists_of_unique ?_ unique
  cases read : Sequence.ofText source with
  | ok sequence => exact ⟨.described, concur_of_sequence read⟩
  | error fault =>
    cases isRejection : fault.isRejection with
    | true => exact ⟨.rejected, concur_of_rejection read isRejection⟩
    | false => exact ⟨.failed, concur_of_fault read isRejection⟩

end Verdicts

end Progressions
