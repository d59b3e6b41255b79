import Progressions.Proofs.Interpretation.Safety
import Progressions.Response

/-!
# Which texts are answered

A request to describe a text within the digit limit is answered unless the comparison of its
numbers gets to neighbours whose difference or ratio cannot be rounded.  That fault is no rejection,
so it stands in place of a response.
-/

set_option autoImplicit false

namespace Progressions

/-- The text is a specification that goes on, and the comparison of its numbers overflows. -/
def Specification.Overflows (source : String) : Prop :=
  ∃ specification, ofText source = .ok specification ∧ specification.hasEllipsis = true ∧
    Pattern.Overflowing specification.numbers

namespace Sequence

variable {source : String}

theorem ofText_overflows (within : Lexeme.IntegersWithin digitLimit source.toList)
    (overflows : Specification.Overflows source) :
    ∃ cause, ofText source = .error (.pattern (.number cause)) ∧ cause.IsOverflow := by
  obtain ⟨specification, accepted, hasEllipsis, overflowing⟩ := overflows
  have counted := Specification.wellCounted_of_ofText within accepted
  obtain ⟨cause, failed, isOverflow⟩ := Pattern.classify_overflow
    specification.ellipsisLocation (counted.several hasEllipsis) overflowing
  refine ⟨cause, ?_, isOverflow⟩
  rw [ofText_accepted accepted, ofSpecification_unclassified hasEllipsis failed]

theorem ofText_inside (within : Lexeme.IntegersWithin digitLimit source.toList)
    (inside : ¬ Specification.Overflows source) :
    (∃ sequence, ofText source = .ok sequence) ∨
      ∃ fault, ofText source = .error fault ∧ fault.isRejection = true := by
  rcases Specification.ofText_cases within with ⟨specification, accepted⟩ | ⟨cause, rejected⟩
  · have counted := Specification.wellCounted_of_ofText within accepted
    have writable : 10 ^ digitLimit ≤ Number.digitCeiling := by decide +kernel
    have numbersInside : specification.hasEllipsis = true →
        ¬ Pattern.Overflowing specification.numbers := by
      intro hasEllipsis overflowing
      exact inside ⟨specification, accepted, hasEllipsis, overflowing⟩
    rw [ofText_accepted accepted]
    rcases ofSpecification_inside counted writable numbersInside with built | unclassifiable
    · exact .inl built
    · exact .inr ⟨_, unclassifiable, rfl⟩
  · exact .inr ⟨_, ofText_rejected rejected, rfl⟩

end Sequence

namespace Response

variable {source : String}

theorem ofText_sequence {sequence : Sequence} (built : Sequence.ofText source = .ok sequence) :
    ofText source = .ok ⟨200, "OK", some sequence.describe⟩ := by
  simp only [ofText, built, okStatus]

theorem ofText_rejection {fault : Fault} (failed : Sequence.ofText source = .error fault)
    (isRejection : fault.isRejection = true) :
    ofText source = .ok ⟨400, "Parse fail: " ++ fault.message, none⟩ := by
  simp only [ofText, failed, isRejection, if_true, rejectedStatus, rejectedMessage]

theorem ofText_fault {fault : Fault} (failed : Sequence.ofText source = .error fault)
    (noRejection : fault.isRejection = false) : ofText source = .error fault := by
  simp [ofText, failed, noRejection]

/-- A text within the digit limit is answered, with a description or with the reason of its
rejection, exactly when it does not overflow; what stands in place of the answer is the overflow. -/
theorem ofText_answers_iff (within : Lexeme.IntegersWithin digitLimit source.toList) :
    (((∃ payload, ofText source = .ok ⟨200, "OK", some payload⟩) ∨
        ∃ reason, ofText source = .ok ⟨400, "Parse fail: " ++ reason, none⟩) ↔
      ¬ Specification.Overflows source) ∧
    ∀ fault, ofText source = .error fault →
      ∃ cause, fault = .pattern (.number cause) ∧ cause.IsOverflow := by
  by_cases overflows : Specification.Overflows source
  · obtain ⟨cause, failed, isOverflow⟩ := Sequence.ofText_overflows within overflows
    have unanswered := ofText_fault failed rfl
    refine ⟨iff_of_false ?_ (not_not_intro overflows), ?_⟩
    · rintro (⟨payload, answered⟩ | ⟨reason, answered⟩)
      · rw [unanswered] at answered
        cases answered
      · rw [unanswered] at answered
        cases answered
    · intro fault found
      exact ⟨cause, Except.error.inj (found.symm.trans unanswered), isOverflow⟩
  · have answered : (∃ payload, ofText source = .ok ⟨200, "OK", some payload⟩) ∨
        ∃ reason, ofText source = .ok ⟨400, "Parse fail: " ++ reason, none⟩ := by
      rcases Sequence.ofText_inside within overflows with
        ⟨sequence, built⟩ | ⟨fault, failed, isRejection⟩
      · exact .inl ⟨_, ofText_sequence built⟩
      · exact .inr ⟨_, ofText_rejection failed isRejection⟩
    refine ⟨iff_of_true answered overflows, ?_⟩
    intro fault found
    rcases answered with ⟨payload, response⟩ | ⟨reason, response⟩
    · rw [found] at response
      cases response
    · rw [found] at response
      cases response

/-- Three integers without a pattern, the second of them with 310 digits. -/
def unansweredText : String :=
  String.ofList ("1,1".toList ++ List.replicate 309 '0' ++ ",5,...".toList)

/-- The ratio of the first two numbers overflows before the third is seen. -/
theorem unansweredText_overflows :
    Lexeme.IntegersWithin digitLimit unansweredText.toList ∧
      Specification.Overflows unansweredText := by
  let comma : Separator := ⟨[], [], by simp, by simp⟩
  let huge : DigitRun :=
    ⟨'1' :: List.replicate 309 '0', List.cons_ne_nil _ _,
      List.all_eq_true.mp (by decide +kernel)⟩
  let sentence : Sentence :=
    { first := ⟨.absent, ⟨['1'], List.cons_ne_nil _ _, List.all_eq_true.mp rfl⟩, none⟩
      further := [.separated comma ⟨.absent, huge, none⟩,
        .separated comma ⟨.absent, ⟨['5'], List.cons_ne_nil _ _, List.all_eq_true.mp rfl⟩, none⟩]
      tail := some ⟨comma, none⟩
      enough := fun _ => Nat.le_refl 3 }
  have characters : sentence.text =
      "1,1".toList ++ List.replicate 309 '0' ++ ",5,...".toList := by decide +kernel
  have isText : sentence.text = unansweredText.toList :=
    characters.trans String.toList_ofList.symm
  have within : Lexeme.IntegersWithin digitLimit unansweredText.toList := by
    rw [Lexeme.IntegersWithin, ← isText, sentence.words_text]
    decide +kernel
  obtain ⟨specification, accepted, numbers, ellipsis, -⟩ :=
    Specification.ofText_sentence within isText
  have values : sentence.numbers = [.int 1, .int (10 ^ 309), .int 5] := by decide +kernel
  refine ⟨within, specification, accepted, ellipsis, ?_⟩
  rw [numbers, values]
  refine .inr ⟨by decide +kernel, [.int 1], .int 1, .int (10 ^ 309), [.int 5], rfl, rfl, ?_, ?_⟩
  · exact .inl (by decide)
  · exact ⟨by decide +kernel, by decide +kernel⟩

theorem unansweredText_not_answered :
    Lexeme.IntegersWithin digitLimit unansweredText.toList ∧
      ¬ ((∃ payload, ofText unansweredText = .ok ⟨200, "OK", some payload⟩) ∨
        ∃ reason, ofText unansweredText = .ok ⟨400, "Parse fail: " ++ reason, none⟩) := by
  obtain ⟨within, overflows⟩ := unansweredText_overflows
  exact ⟨within, fun answered => (ofText_answers_iff within).1.mp answered overflows⟩

theorem not_every_text_answered :
    ¬ ∀ source : String, Lexeme.IntegersWithin digitLimit source.toList →
      ∃ response, ofText source = .ok response := by
  intro answers
  obtain ⟨within, overflows⟩ := unansweredText_overflows
  obtain ⟨response, answered⟩ := answers unansweredText within
  obtain ⟨cause, failed, -⟩ := Sequence.ofText_overflows within overflows
  rw [ofText_fault failed rfl] at answered
  cases answered

end Response

end Progressions
