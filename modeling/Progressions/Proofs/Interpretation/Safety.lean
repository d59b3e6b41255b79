import Progressions.Proofs.Interpretation.Building
import Progressions.Proofs.Stream.Reference

/-!
# Texts with short integers

Integers of at most 308 digits can be rounded.  Then no comparison of the classification and no
move of an iterator fails: a text is a sequence that runs for ever without an error, or it is
rejected for its grammar or for its pattern.
-/

set_option autoImplicit false

namespace Progressions

/-! ## Runs -/

namespace Progression

variable {progression : Progression}

theorem next_of_compatible {value : Number}
    (compatible : Number.Compatible value progression.step) :
    ∃ result, progression.next value = .ok result ∧
      Number.Compatible result progression.step := by
  cases pattern : progression.pattern with
  | arithmetic =>
    obtain ⟨result, found, again⟩ :=
      Number.combine_of_compatible (· + ·) Binary64.add compatible
    refine ⟨result, ?_, again⟩
    simp only [next, pattern, Number.add_eq_combine, found]
  | geometric =>
    obtain ⟨result, found, again⟩ :=
      Number.combine_of_compatible (· * ·) Binary64.mul compatible
    refine ⟨result, ?_, again⟩
    simp only [next, pattern, Number.mul_eq_combine, found]

/-- The step can be applied over and over once it can be applied to the start. -/
theorem term_of_compatible {start : Number}
    (compatible : Number.Compatible start progression.step) (count : Nat) :
    ∃ value, progression.term start count = .ok value ∧
      Number.Compatible value progression.step := by
  induction count with
  | zero => exact ⟨start, rfl, compatible⟩
  | succ count inductionHypothesis =>
    obtain ⟨value, reached, compatibleHere⟩ := inductionHypothesis
    obtain ⟨next, found, compatibleNext⟩ := next_of_compatible compatibleHere
    exact ⟨next, by rw [term_succ_of_ok reached, found], compatibleNext⟩

end Progression

namespace Sequence

/-- The step of a sequence that goes on can be applied to its last number. -/
def Continuable (sequence : Sequence) : Prop :=
  ∀ progression, sequence.progression = some progression →
    Number.Compatible sequence.last progression.step

variable {specification : Specification} {sequence : Sequence}

theorem reference_of_continuable (continuable : sequence.Continuable) (place : Nat) :
    ∃ value, sequence.reference place = .ok value := by
  by_cases within : place < sequence.numbers.length
  · exact ⟨_, reference_of_lt within⟩
  · have past : sequence.numbers.length ≤ place := by omega
    cases goesOn : sequence.progression with
    | none => exact ⟨none, reference_itemized goesOn past⟩
    | some progression =>
      obtain ⟨terms, rfl⟩ := Nat.exists_eq_add_of_le past
      obtain ⟨value, reached, -⟩ :=
        Progression.term_of_compatible (continuable progression goesOn) (terms + 1)
      rw [reference_term goesOn, reached]
      split
      · exact ⟨none, rfl⟩
      · exact ⟨some value, rfl⟩

theorem outcomes_of_continuable (continuable : sequence.Continuable) (count : Nat) :
    ∀ outcome ∈ sequence.outcomes count, ∃ value, outcome = .ok value := by
  intro outcome member
  rw [outcomes_eq_reference] at member
  obtain ⟨place, -, rfl⟩ := List.mem_map.mp member
  obtain ⟨value, given⟩ := reference_of_continuable continuable place
  exact ⟨value, by rw [given]; rfl⟩

theorem continuable_of_convertible {ceiling : Nat} (counted : specification.WellCounted ceiling)
    (convertible : ∀ number ∈ specification.numbers, number.Convertible)
    (accepted : ofSpecification specification = .ok sequence) : sequence.Continuable := by
  obtain ⟨sameNumbers, ⟨-, itemized⟩ | ⟨classification, hasEllipsis, classified, goesOn⟩⟩ :=
    ofSpecification_eq_ok accepted
  · intro progression present
    rw [itemized] at present
    cases present
  · intro progression present
    obtain rfl := Option.some.inj (goesOn.symm.trans present)
    have compatible := Pattern.compatible_step (counted.several hasEllipsis) counted.nonempty
      convertible classified
    simp only [last, sameNumbers]
    exact compatible

end Sequence

namespace Iterator

theorem ten_pow_le_roundingCeiling : 10 ^ 308 ≤ roundingCeiling := by decide +kernel

theorem ten_pow_le_digitCeiling : 10 ^ 308 ≤ Number.digitCeiling := by decide +kernel

/-- A text whose integers have at most 308 digits is rejected for its grammar, or for numbers
without a pattern, or gives an iterator that never fails, however often it is asked. -/
theorem ofText_never_fails {source : String}
    (within : Lexeme.IntegersWithin 308 source.toList) :
    (∃ cause, ofText source = .error (.grammar cause)) ∨
    (∃ numbers location,
      ofText source = .error (.pattern (.unclassifiable numbers location))) ∨
    ∃ sequence, ofText source = .ok (.ofSequence sequence) ∧
      (∀ count, ∀ outcome ∈ sequence.outcomes count, ∃ value, outcome = .ok value) ∧
      1 ≤ sequence.numbers.length ∧
      (sequence.hasEllipsis = true → 3 ≤ sequence.numbers.length) ∧
      (sequence.bound.isSome = true → sequence.hasEllipsis = true) ∧
      sequence.step.isSome = sequence.hasEllipsis ∧
      (sequence.kind ≠ .itemized ↔ sequence.hasEllipsis = true) := by
  have readable : 308 ≤ digitLimit := by decide
  rcases Specification.ofText_cases (within.mono readable) with
    ⟨specification, accepted⟩ | ⟨cause, rejected⟩
  · have counted := Specification.wellCounted_of_ofText within accepted
    have convertible : ∀ number ∈ specification.numbers, number.Convertible := by
      intro number member
      exact Number.convertible_of_integerBelow (counted.below number member)
        ten_pow_le_roundingCeiling
    have inside := Pattern.not_overflowing_of_convertible convertible
    have asSequence := Sequence.ofText_accepted accepted
    rcases Sequence.ofSpecification_inside counted ten_pow_le_digitCeiling (fun _ => inside) with
      ⟨sequence, built⟩ | rejected
    · refine .inr (.inr ⟨sequence, ?_, ?_, ?_, ?_, sequence.parts_of_hasEllipsis⟩)
      · simp only [ofText, asSequence, built, Except.map]
      · exact Sequence.outcomes_of_continuable
          (Sequence.continuable_of_convertible counted convertible built)
      · exact List.length_pos_iff.mpr sequence.nonempty
      · rw [Sequence.hasEllipsis_eq built, (Sequence.ofSpecification_eq_ok built).1]
        exact counted.enough
    · refine .inr (.inl ⟨specification.numbers, specification.ellipsisLocation, ?_⟩)
      simp only [ofText, asSequence, rejected, Except.map]
  · refine .inl ⟨cause, ?_⟩
    simp only [ofText, Sequence.ofText_rejected rejected, Except.map]

theorem mixed_text_never_fails :
    Lexeme.IntegersWithin 308 "1,2.5,4,...".toList ∧
      ∃ sequence, ofText "1,2.5,4,..." = .ok (.ofSequence sequence) ∧
        ∀ count, ∀ outcome ∈ sequence.outcomes count, ∃ value, outcome = .ok value := by
  have within : Lexeme.IntegersWithin 308 "1,2.5,4,...".toList := by decide +kernel
  have accepted : (ofText "1,2.5,4,...").isOk = true := by decide +kernel
  refine ⟨within, ?_⟩
  rcases ofText_never_fails within with
    ⟨cause, rejected⟩ | ⟨numbers, location, rejected⟩ | ⟨sequence, built, never, -⟩
  · rw [rejected] at accepted
    cases accepted
  · rw [rejected] at accepted
    cases accepted
  · exact ⟨sequence, built, never⟩

end Iterator

end Progressions
