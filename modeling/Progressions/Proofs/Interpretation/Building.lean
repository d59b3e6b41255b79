import Progressions.Interpretation
import Progressions.Proofs.Grammar.Literals
import Progressions.Proofs.Pattern.Classification

/-!
# From texts to sequences

What a text, or its specification, is read as: the sequence of its numbers, which goes on as they
are classified if there is an ellipsis, or the fault of its grammar or its numbers.
-/

set_option autoImplicit false

namespace Progressions

namespace Sequence

variable {specification : Specification} {sequence : Sequence}

theorem ofSpecification_itemized (nonempty : specification.numbers ≠ [])
    (itemized : specification.hasEllipsis = false) :
    ofSpecification specification = .ok ⟨specification.numbers, none, nonempty⟩ := by
  simp [ofSpecification, itemized, ofParts, nonempty, SequenceKind.pattern?]

theorem ofSpecification_classified (nonempty : specification.numbers ≠ [])
    (hasEllipsis : specification.hasEllipsis = true) {classification : Classification}
    (classified : classify specification.numbers specification.ellipsisLocation =
      .ok classification) :
    ofSpecification specification =
      .ok ⟨specification.numbers,
        some ⟨classification.pattern, classification.step, specification.bound⟩, nonempty⟩ := by
  obtain ⟨pattern, step⟩ := classification
  cases pattern <;>
    simp [ofSpecification, hasEllipsis, classified, ofParts, nonempty, SequenceKind.ofPattern,
      SequenceKind.pattern?]

theorem ofSpecification_unclassified (hasEllipsis : specification.hasEllipsis = true)
    {cause : PatternError}
    (failed : classify specification.numbers specification.ellipsisLocation = .error cause) :
    ofSpecification specification = .error (.pattern cause) := by
  simp [ofSpecification, hasEllipsis, failed]

theorem ofSpecification_eq_ok (accepted : ofSpecification specification = .ok sequence) :
    sequence.numbers = specification.numbers ∧
      ((specification.hasEllipsis = false ∧ sequence.progression = none) ∨
        ∃ classification, specification.hasEllipsis = true ∧
          classify specification.numbers specification.ellipsisLocation = .ok classification ∧
          sequence.progression =
            some ⟨classification.pattern, classification.step, specification.bound⟩) := by
  by_cases nonempty : specification.numbers = []
  · simp [ofSpecification, nonempty, classify, ofParts] at accepted
    split at accepted <;> cases accepted
  · cases hasEllipsis : specification.hasEllipsis with
    | false =>
      rw [ofSpecification_itemized nonempty hasEllipsis] at accepted
      cases accepted
      exact ⟨rfl, .inl ⟨rfl, rfl⟩⟩
    | true =>
      cases classified : classify specification.numbers specification.ellipsisLocation with
      | error cause =>
        rw [ofSpecification_unclassified hasEllipsis classified] at accepted
        cases accepted
      | ok classification =>
        rw [ofSpecification_classified nonempty hasEllipsis classified] at accepted
        cases accepted
        exact ⟨rfl, .inr ⟨classification, rfl, rfl, rfl⟩⟩

theorem ofSpecification_inside {ceiling : Nat} (counted : specification.WellCounted ceiling)
    (writable : ceiling ≤ Number.digitCeiling)
    (inside : specification.hasEllipsis = true → ¬ Pattern.Overflowing specification.numbers) :
    (∃ found, ofSpecification specification = .ok found) ∨
      ofSpecification specification = .error (.pattern
        (.unclassifiable specification.numbers specification.ellipsisLocation)) := by
  cases hasEllipsis : specification.hasEllipsis with
  | false => exact .inl ⟨_, ofSpecification_itemized counted.nonempty hasEllipsis⟩
  | true =>
    have allWritable : specification.numbers.all Number.writable = true := by
      rw [List.all_eq_true]
      intro number member
      exact Number.writable_of_integerBelow (counted.below number member) writable
    rcases Pattern.classify_inside specification.ellipsisLocation (counted.several hasEllipsis)
      (inside hasEllipsis) allWritable with ⟨classification, classified⟩ | rejected
    · exact .inl ⟨_, ofSpecification_classified counted.nonempty hasEllipsis classified⟩
    · exact .inr (ofSpecification_unclassified hasEllipsis rejected)

theorem hasEllipsis_eq (accepted : ofSpecification specification = .ok sequence) :
    sequence.hasEllipsis = specification.hasEllipsis := by
  obtain ⟨-, ⟨itemized, goesOn⟩ | ⟨classification, continues, -, goesOn⟩⟩ :=
    ofSpecification_eq_ok accepted
  · rw [hasEllipsis, goesOn, itemized]
    rfl
  · rw [hasEllipsis, goesOn, continues]
    rfl

/-- A bound, a step and a pattern exist only with an ellipsis, the last two always. -/
theorem parts_of_hasEllipsis (sequence : Sequence) :
    (sequence.bound.isSome = true → sequence.hasEllipsis = true) ∧
      sequence.step.isSome = sequence.hasEllipsis ∧
        (sequence.kind ≠ .itemized ↔ sequence.hasEllipsis = true) := by
  cases goesOn : sequence.progression with
  | none => simp [bound, step, kind, hasEllipsis, goesOn]
  | some progression =>
    obtain ⟨pattern, step, limit⟩ := progression
    cases pattern <;> simp [bound, Sequence.step, kind, hasEllipsis, goesOn, SequenceKind.ofPattern]

end Sequence

namespace Specification

theorem ofText_cases {source : String}
    (within : Lexeme.IntegersWithin digitLimit source.toList) :
    (∃ specification, ofText source = .ok specification) ∨
      ∃ cause, ofText source = .error (.grammar cause) := by
  obtain ⟨tokens, tokenized, -⟩ := tokenize_reads within
  cases parsed : ofTokens tokens with
  | error cause => exact .inr ⟨cause, by simp [ofText, tokenized, parsed]⟩
  | ok specification =>
    exact .inl ⟨specification, by simp [ofText, tokenized, parsed]⟩

end Specification

namespace Sequence

variable {source : String}

theorem ofText_accepted {specification : Specification}
    (accepted : Specification.ofText source = .ok specification) :
    ofText source = ofSpecification specification := by
  simp only [ofText, accepted, bind, Except.bind]

theorem ofText_rejected {fault : Fault} (rejected : Specification.ofText source = .error fault) :
    ofText source = .error fault := by
  simp only [ofText, rejected, bind, Except.bind]

theorem exists_specification_of_ofText {sequence : Sequence}
    (built : ofText source = .ok sequence) :
    ∃ specification, Specification.ofText source = .ok specification ∧
      ofSpecification specification = .ok sequence := by
  cases read : Specification.ofText source with
  | error fault =>
    rw [ofText_rejected read] at built
    cases built
  | ok specification =>
    rw [ofText_accepted read] at built
    exact ⟨specification, rfl, built⟩

/-- A text whose sequence goes on has at least three numbers, and they have the step in common. -/
theorem classified_of_ofText {sequence : Sequence} {progression : Progression}
    (built : ofText source = .ok sequence) (goesOn : sequence.progression = some progression) :
    3 ≤ sequence.numbers.length ∧
      ((progression.pattern = .arithmetic ∧
          commonDifference sequence.numbers = .ok (some progression.step)) ∨
        (progression.pattern = .geometric ∧ commonDifference sequence.numbers = .ok none ∧
          Pattern.commonStep Pattern.ratio sequence.numbers = .ok (some progression.step))) := by
  obtain ⟨specification, accepted, built⟩ := exists_specification_of_ofText built
  have counted := Specification.wellCounted_of_ofText
    (Specification.within_of_ofText accepted) accepted
  obtain ⟨sameNumbers, ⟨-, itemized⟩ | ⟨classification, hasEllipsis, classified, isProgression⟩⟩ :=
    ofSpecification_eq_ok built
  · rw [itemized] at goesOn
    cases goesOn
  · obtain rfl := Option.some.inj (isProgression.symm.trans goesOn)
    rw [sameNumbers]
    exact ⟨counted.enough hasEllipsis,
      Pattern.classify_eq_ok (counted.several hasEllipsis) classified⟩

/-- What a sentence with an ellipsis is read as, if its numbers have a difference in common. -/
theorem ofText_arithmetic_sentence {sentence : Sentence} {step : Number}
    (within : Lexeme.IntegersWithin digitLimit sentence.text)
    (hasTail : sentence.tail.isSome = true)
    (common : commonDifference sentence.numbers = .ok (some step)) :
    ofText (String.ofList sentence.text) =
      .ok ⟨sentence.numbers, some ⟨.arithmetic, step, sentence.bound⟩, List.cons_ne_nil _ _⟩ := by
  have isText : sentence.text = (String.ofList sentence.text).toList :=
    String.toList_ofList.symm
  rw [isText] at within
  obtain ⟨specification, accepted, numbers, hasEllipsis, limited⟩ :=
    Specification.ofText_sentence within isText
  have counted := Specification.wellCounted_of_ofText within accepted
  rw [hasTail] at hasEllipsis
  rw [← numbers] at common
  have classified : classify specification.numbers specification.ellipsisLocation =
      .ok ⟨.arithmetic, step⟩ :=
    Pattern.classify_of_commonDifference (counted.several hasEllipsis) common
  have built := ofSpecification_classified counted.nonempty hasEllipsis classified
  rw [ofText_accepted accepted, built]
  simp only [numbers, limited]

end Sequence

end Progressions
