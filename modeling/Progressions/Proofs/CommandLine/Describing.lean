import Progressions.Proofs.CommandLine.Rejection
import Progressions.Proofs.Interpretation.Documents

/-!
# Descriptions on the command line

A text that is answered with a description is described on the command line: the standard output
holds one JSON document of the answer, the run ends well and the error output is empty.  A text with
an infinite number among its numbers is the exception, since only the bound and the step are
spelled; the first such number ends the run in a fault before anything is written.
-/

set_option autoImplicit false

namespace Progressions

/-- How a document holds an entry of a description: an infinite number as a word, any other value
as it is. -/
inductive HeldAs : String × Value → String × Value → Prop
  | unchanged (key : String) {value : Value}
      (finite : ∀ negative, value ≠ .number (.float (.infinite negative))) :
      HeldAs (key, value) (key, value)
  | spelled (key : String) (negative : Bool) :
      HeldAs (key, .number (.float (.infinite negative)))
        (key, .text (if negative then "-Inf" else "Inf"))

/-- The text is a JSON document of the status, the message and all entries of the payload. -/
structure Response.IsWritten (response : Response) (text : String)
    (payload entries : List (String × Value)) : Prop where
  isPayload : response.payload = some (.object payload)
  held : List.Forall₂ HeldAs payload entries
  document : Json.Document text.toList
    (.object [("status", .number (.int response.status)), ("message", .text response.message),
      ("payload", .object entries)])

theorem Response.exists_sequence_of_ofText {source : String} {response : Response}
    (answered : ofText source = .ok response) (accepted : response.status = 200) :
    ∃ sequence, Sequence.ofText source = .ok sequence ∧
      response = ⟨200, "OK", some sequence.describe⟩ := by
  cases built : Sequence.ofText source with
  | ok sequence =>
    rw [ofText_sequence built] at answered
    exact ⟨sequence, rfl, (Except.ok.inj answered).symm⟩
  | error fault =>
    cases isRejection : fault.isRejection with
    | true =>
      rw [ofText_rejection built isRejection] at answered
      cases answered
      cases accepted
    | false =>
      rw [ofText_fault built isRejection] at answered
      cases answered

theorem Json.Document.append {text spaces : List Char} {value : Value}
    (document : Json.Document text value) (isSpaces : Json.Spaces spaces) :
    Json.Document (text ++ spaces) value := by
  obtain ⟨before, denotes, behind⟩ := document
  rw [List.append_assoc]
  exact .mk before denotes (List.forall_mem_append.mpr ⟨behind, isSpaces⟩)

theorem Value.heldAs_spellInfinity (key : String) (value : Value) :
    HeldAs (key, value) (key, value.spellInfinity) := by
  fun_cases spellInfinity value with
  | case1 negative => exact .spelled key negative
  | case2 _ finite => exact .unchanged key finite

theorem Sequence.held_spelled (sequence : Sequence) :
    List.Forall₂ HeldAs sequence.describe.entries sequence.spelled := by
  have spelled : sequence.spelled =
      sequence.describe.entries.map fun entry => (entry.1, entry.2.spellInfinity) := by
    rw [spelled_eq]
    cases goesOn : sequence.hasEllipsis <;>
      simp [describe, Value.entries, goesOn, boundKey, stepKey, Value.spellInfinity]
  rw [spelled, List.forall₂_map_right_iff, List.forall₂_same]
  exact fun entry _ => Value.heldAs_spellInfinity entry.1 entry.2

namespace CommandLine

variable {source : String} {sequence : Sequence}

theorem description_sequence (built : Sequence.ofText source = .ok sequence) :
    description source = (sequence.document.json.mapError .json).map .ok := by
  have isDocument : Value.object [("status", .number (.int 200)), ("message", .text "OK"),
      ("payload", ((some sequence.describe).getD .null).spellLimits)] = sequence.document := rfl
  have isOk : Response.isOk ⟨200, "OK", some sequence.describe⟩ = true := rfl
  rw [description, Response.ofText_sequence built]
  simp only [isOk, if_true, isDocument]
  cases sequence.document.json <;> rfl

theorem run_describe_document {text : String} (built : Sequence.ofText source = .ok sequence)
    (written : sequence.document.json = .ok text) (fuel : Nat) :
    run fuel ["--describe", "--", source] none = some ⟨.ok 0, text ++ "\n", ""⟩ := by
  have described : description source = .ok (.ok text) := by
    rw [description_sequence built, written]
    rfl
  rw [run_describe, describe, described, eventText_quiet rfl]
  simp [Outlet.deliver, Outlet.writeAll, Outlet.closed, Outlet.append, okStatus]

theorem run_describe_fault {cause : JsonError} (built : Sequence.ofText source = .ok sequence)
    (failed : sequence.document.json = .error cause) (fuel : Nat) :
    run fuel ["--describe", "--", source] none = some ⟨.error (.json cause), "", ""⟩ := by
  have undescribed : description source = .error (.json cause) := by
    rw [description_sequence built, failed]
    rfl
  rw [run_describe, describe, undescribed, eventText_quiet rfl]

/-- A text that is answered with a description is described, unless one of its numbers is infinite:
then the first that is so takes the place of the status, and nothing is written. -/
theorem run_describes {response : Response} (answered : Response.ofText source = .ok response)
    (accepted : response.status = 200) :
    ∃ specification, Specification.ofText source = .ok specification ∧
      ((∀ negative, .float (.infinite negative) ∉ specification.numbers) →
        ∃ text payload entries,
          (∀ fuel, run fuel ["--describe", "--", source] none = some ⟨.ok 0, text, ""⟩) ∧
          response.IsWritten text payload entries ∧
          entries.lookup "numbers" = some (.list (specification.numbers.map .number))) ∧
      ∀ front negative back,
        specification.numbers = front ++ .float (.infinite negative) :: back →
        (∀ sign, .float (.infinite sign) ∉ front) →
        ∀ fuel, run fuel ["--describe", "--", source] none =
          some ⟨.error (.json (.notFinite (.infinite negative))), "", ""⟩ := by
  obtain ⟨sequence, built, rfl⟩ := Response.exists_sequence_of_ofText answered accepted
  obtain ⟨specification, read, madeOf⟩ := Sequence.exists_specification_of_ofText built
  refine ⟨specification, read, ?_⟩
  rw [← (Sequence.ofSpecification_eq_ok madeOf).1]
  constructor
  · intro finite
    obtain ⟨text, written⟩ := Sequence.exists_document built finite
    have newline : Json.Spaces "\n".toList := by decide +kernel
    have document := (Json.document_of_json written).append newline
    rw [← String.toList_append] at document
    exact ⟨text ++ "\n", sequence.describe.entries, sequence.spelled,
      run_describe_document built written,
      ⟨rfl, sequence.held_spelled, document⟩, sequence.lookup_numbers_spelled⟩
  · intro front negative back listed finite
    exact run_describe_fault built (Sequence.document_fault built listed finite)

/-- A decimal beyond all finite numbers: a one and 309 zeros in front of the point. -/
def overflowingText : String := String.ofList ('1' :: List.replicate 309 '0' ++ ['.', '0'])

def overflowing : Sequence := ⟨[.float (.infinite false)], none, List.cons_ne_nil _ _⟩

theorem ofText_overflowingText : Sequence.ofText overflowingText = .ok overflowing := by
  let digits : DigitRun :=
    ⟨'1' :: List.replicate 309 '0', List.cons_ne_nil _ _, List.all_eq_true.mp (by decide +kernel)⟩
  let zero : DigitRun := ⟨['0'], List.cons_ne_nil _ _, List.all_eq_true.mp rfl⟩
  let sentence : Sentence :=
    { first := ⟨.absent, digits, some zero⟩
      further := []
      tail := none
      enough := fun continues => absurd continues Bool.false_ne_true }
  have characters : sentence.text = '1' :: List.replicate 309 '0' ++ ['.', '0'] := by
    decide +kernel
  have isText : sentence.text = overflowingText.toList :=
    characters.trans String.toList_ofList.symm
  have within : Lexeme.IntegersWithin digitLimit overflowingText.toList := by
    rw [Lexeme.IntegersWithin, ← isText, sentence.words_text]
    decide +kernel
  obtain ⟨specification, accepted, numbers, ellipsis, -⟩ :=
    Specification.ofText_sentence within isText
  have values : sentence.numbers = [.float (.infinite false)] := by decide +kernel
  rw [values] at numbers
  have nonempty : specification.numbers ≠ [] := by
    rw [numbers]
    exact List.cons_ne_nil _ _
  rw [Sequence.ofText_accepted accepted, Sequence.ofSpecification_itemized nonempty ellipsis]
  simp only [numbers, overflowing]

def falling : Sequence :=
  ⟨[.int 3, .int 2, .int 1], some ⟨.arithmetic, .int (-1), some (.float (.infinite true))⟩,
    List.cons_ne_nil _ _⟩

theorem run_describes_infinities :
    Response.ofText "3,2,1,...,-Inf" = .ok ⟨200, "OK", some falling.describe⟩ ∧
      Response.ofText overflowingText = .ok ⟨200, "OK", some overflowing.describe⟩ ∧
      (∃ text payload entries,
        run 0 ["--describe", "--", "3,2,1,...,-Inf"] none = some ⟨.ok 0, text, ""⟩ ∧
          Response.IsWritten ⟨200, "OK", some falling.describe⟩ text payload entries ∧
          entries.lookup "numbers" = some (.list ([.int 3, .int 2, .int 1].map .number))) ∧
      run 0 ["--describe", "--", overflowingText] none =
        some ⟨.error (.json (.notFinite (.infinite false))), "", ""⟩ := by
  have fallingBuilt : Sequence.ofText "3,2,1,...,-Inf" = .ok falling := by decide +kernel
  have fallingAnswered := Response.ofText_sequence fallingBuilt
  have answered := Response.ofText_sequence ofText_overflowingText
  refine ⟨fallingAnswered, answered, ?_, ?_⟩
  · obtain ⟨specification, read, described, -⟩ := run_describes fallingAnswered rfl
    rw [Sequence.ofText_accepted read] at fallingBuilt
    rw [← (Sequence.ofSpecification_eq_ok fallingBuilt).1] at described
    obtain ⟨text, payload, entries, ran, written, listed⟩ := described (by decide)
    exact ⟨text, payload, entries, ran 0, written, listed⟩
  · obtain ⟨specification, read, -, failed⟩ := run_describes answered rfl
    have built := ofText_overflowingText
    rw [Sequence.ofText_accepted read] at built
    exact failed [] false [] (Sequence.ofSpecification_eq_ok built).1.symm
      (fun _ => List.not_mem_nil) 0

theorem not_every_description_written :
    ¬ ∀ (source : String) (response : Response), Response.ofText source = .ok response →
      response.status = 200 → ∃ (fuel : Nat) (text : String),
        run fuel ["--describe", "--", source] none = some ⟨.ok 0, text, ""⟩ := by
  intro describes
  obtain ⟨fuel, text, ran⟩ :=
    describes overflowingText _ (Response.ofText_sequence ofText_overflowingText) rfl
  have listed : overflowing.numbers = [] ++ .float (.infinite false) :: [] := rfl
  have failed :=
    Sequence.document_fault ofText_overflowingText listed (fun _ => List.not_mem_nil)
  rw [run_describe_fault ofText_overflowingText failed] at ran
  cases ran

end CommandLine

end Progressions
