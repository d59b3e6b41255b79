import Progressions.Proofs.Interpretation.Agreement
import Progressions.Proofs.Pattern.Integers
import Progressions.Proofs.Pattern.Links
import Progressions.Proofs.Value.Document

/-!
# Documents of descriptions

The description of a text's sequence can be written as a JSON document exactly when no number that
the sequence lists is infinite.  Its integers are within the digit limit, and so is its step: three
numbers have it in common, so twice the step is the difference of two of them.  The bound and the
step may be infinite, since they are spelled out.
-/

set_option autoImplicit false

namespace Progressions

/-! ## The step within the digit limit -/

namespace Number

/-- Only integers have an integer for their difference. -/
theorem sub_eq_int {left right : Number} {whole : Int}
    (subtracted : left.sub right = .ok (.int whole)) :
    ∃ first second, left = .int first ∧ right = .int second ∧ first - second = whole := by
  rw [sub_eq_combine] at subtracted
  rcases combine_cases left right with ⟨first, second, rfl, rfl⟩ | ⟨isRounded, -⟩
  · exact ⟨first, second, rfl, rfl, int.inj (Except.ok.inj subtracted)⟩
  · obtain ⟨_, _, -, -, isFloat⟩ := rounded_eq_ok (isRounded.symm.trans subtracted)
    cases isFloat

end Number

namespace Pattern

variable {numbers : List Number} {step : Number} {ceiling : Nat}

theorem step_below (enough : 3 ≤ numbers.length)
    (below : ∀ number ∈ numbers, number.IntegerBelow ceiling) (large : roundingCeiling ≤ ceiling)
    (common : commonDifference numbers = .ok (some step)) : step.IntegerBelow ceiling := by
  match numbers with
  | [] | [_] | [_, _] => simp at enough
  | first :: second :: third :: rest =>
    obtain ⟨linked, steady⟩ := commonStep_eq_some common
    obtain ⟨found, nextLinked, same, -⟩ := isSteady_cons_eq_true steady
    cases step with
    | float => exact True.intro
    | int whole =>
      obtain ⟨current, previous, rfl, rfl, rfl⟩ := Number.sub_eq_int (difference_eq_some linked)
      cases found with
      | float value => exact Nat.lt_of_lt_of_le (Number.convertible_of_equals_float same) large
      | int further =>
        obtain ⟨last, _, rfl, isCurrent, rfl⟩ := Number.sub_eq_int (difference_eq_some nextLinked)
        have shared := Number.equals_int.mp same
        have firstBelow : previous.natAbs < ceiling := below (.int previous) (by simp)
        have lastBelow : last.natAbs < ceiling := below (.int last) (by simp)
        obtain rfl := Number.int.inj isCurrent
        change (current - previous).natAbs < ceiling
        omega

end Pattern

namespace Sequence

variable {source : String} {sequence : Sequence}

/-- No integer in the sequence is beyond the digit limit. -/
structure Writable (sequence : Sequence) : Prop where
  numbers : ∀ number ∈ sequence.numbers, number.writable = true
  bound : ∀ bound ∈ sequence.bound, bound.writable = true
  step : ∀ step ∈ sequence.step, step.writable = true

theorem step_below_of_ofText (built : ofText source = .ok sequence) :
    ∀ step ∈ sequence.step, step.IntegerBelow (10 ^ digitLimit) := by
  intro step present
  obtain ⟨progression, goesOn, rfl⟩ := Option.map_eq_some_iff.mp present
  obtain ⟨specification, accepted, madeOf⟩ := exists_specification_of_ofText built
  have within := Specification.within_of_ofText accepted
  have below := (Specification.wellCounted_of_ofText within accepted).below
  rw [← (ofSpecification_eq_ok madeOf).1] at below
  obtain ⟨enough, ⟨-, common⟩ | ⟨-, -, common⟩⟩ := classified_of_ofText built goesOn
  · exact Pattern.step_below enough below (by decide +kernel) common
  · obtain ⟨value, isStep⟩ := Pattern.step_of_ratio (by omega) common
    rw [isStep]
    exact True.intro

theorem writable_of_ofText (built : ofText source = .ok sequence) : sequence.Writable := by
  have step := step_below_of_ofText built
  obtain ⟨specification, accepted, madeOf⟩ := exists_specification_of_ofText built
  have within := Specification.within_of_ofText accepted
  have ceiling : 10 ^ digitLimit ≤ Number.digitCeiling := by decide +kernel
  obtain ⟨sameNumbers, progression⟩ := ofSpecification_eq_ok madeOf
  constructor
  case numbers =>
    rw [sameNumbers]
    intro number member
    exact Number.writable_of_integerBelow
      ((Specification.wellCounted_of_ofText within accepted).below number member) ceiling
  case bound =>
    intro bound present
    rcases progression with ⟨-, itemized⟩ | ⟨classification, -, -, goesOn⟩
    · simp [Sequence.bound, itemized] at present
    · simp only [Sequence.bound, goesOn, Option.bind_some] at present
      exact Number.writable_of_integerBelow
        (Specification.bound_below_of_ofText within accepted bound present) ceiling
  case step =>
    intro found present
    exact Number.writable_of_integerBelow (step found present) ceiling

end Sequence

/-! ## Numbers in documents -/

namespace Value

variable {number : Number}

theorem numberFailure?_of_finite (writable : number.writable = true)
    (comparable : number ≠ .float .nan)
    (finite : ∀ negative, number ≠ .float (.infinite negative)) :
    numberFailure? number = none := by
  cases number with
  | int value =>
    rw [numberFailure?, Json.number, Number.text, if_pos writable]
    rfl
  | float value => cases value with
    | nan => exact absurd rfl comparable
    | infinite negative => exact absurd rfl (finite negative)
    | finite => rfl

theorem numberFailure?_infinite (negative : Bool) :
    numberFailure? (.float (.infinite negative)) = some (.notFinite (.infinite negative)) := rfl

/-- A bound or a step that is spelled if it is infinite has a text. -/
theorem findSome?_spelled {limit : Option Number}
    (writable : ∀ number ∈ limit, number.writable = true)
    (comparable : ∀ number ∈ limit, number ≠ .float .nan) :
    (ofOption limit).spellInfinity.numbers.findSome? numberFailure? = none := by
  cases limit with
  | none => rfl
  | some number =>
    by_cases infinite : ∃ negative, number = .float (.infinite negative)
    · obtain ⟨negative, rfl⟩ := infinite
      rfl
    · have finite : ∀ negative, number ≠ .float (.infinite negative) := fun negative isInfinite =>
        infinite ⟨negative, isInfinite⟩
      have unchanged : (ofOption (some number)).spellInfinity = .number number := by
        rw [ofOption, spellInfinity]
        exact fun negative same => finite negative (Value.number.inj same)
      rw [unchanged, Value.numbers, List.findSome?_singleton]
      exact numberFailure?_of_finite (writable number rfl) (comparable number rfl) finite

end Value

/-! ## Documents of sequences -/

namespace Sequence

variable {source : String} {sequence : Sequence}

/-- The entries of the description with an infinite bound or step spelled. -/
def spelled (sequence : Sequence) : List (String × Value) :=
  Value.spellEntries sequence.describe.entries

/-- What is written of a sequence: the response with its entries spelled. -/
def document (sequence : Sequence) : Value :=
  .object [("status", .number (.int 200)), ("message", .text "OK"),
    ("payload", .object sequence.spelled)]

theorem spelled_eq (sequence : Sequence) :
    sequence.spelled =
      [("numbers", .list (sequence.numbers.map .number)),
        ("has_ellipsis", .bool sequence.hasEllipsis)] ++
      (if sequence.hasEllipsis then
        [("last_number", (Value.ofOption sequence.bound).spellInfinity)] else []) ++
      [("type", .text sequence.kind.label),
        ("inc", (Value.ofOption sequence.step).spellInfinity)] := by
  cases goesOn : sequence.hasEllipsis <;>
    simp [spelled, describe, Value.entries, Value.spellEntries, goesOn, boundKey, stepKey]

theorem lookup_numbers_spelled (sequence : Sequence) :
    sequence.spelled.lookup "numbers" = some (.list (sequence.numbers.map .number)) := by
  rw [spelled_eq]
  rfl

/-- A sequence has a document unless it lists a number without a text. -/
theorem failure?_document (writable : sequence.Writable) (comparable : sequence.Comparable) :
    failure? sequence.document.json = sequence.numbers.findSome? Value.numberFailure? := by
  have status : Value.numberFailure? (.int 200) = none :=
    Value.numberFailure?_of_finite (by decide +kernel) nofun nofun
  have bound := Value.findSome?_spelled writable.bound comparable.bound
  have step := Value.findSome?_spelled writable.step comparable.step
  rw [Value.failure?_json, document, spelled_eq]
  cases goesOn : sequence.hasEllipsis <;>
    simp [Value.numbers, Value.numbersOfEntries, Value.numbersOfItems_map_number, status, bound,
      step]

section OfText

variable (built : ofText source = .ok sequence)

include built

theorem numberFailure?_eq_none {listed : List Number} (member : listed ⊆ sequence.numbers)
    (finite : ∀ negative, .float (.infinite negative) ∉ listed) :
    listed.findSome? Value.numberFailure? = none := by
  rw [List.findSome?_eq_none_iff]
  intro number present
  refine Value.numberFailure?_of_finite ((writable_of_ofText built).numbers number (member present))
    ((comparable_of_ofText built).numbers number (member present)) ?_
  rintro negative rfl
  exact finite negative present

theorem failure?_document_of_ofText :
    failure? sequence.document.json = sequence.numbers.findSome? Value.numberFailure? :=
  failure?_document (writable_of_ofText built) (comparable_of_ofText built)

theorem exists_document (finite : ∀ negative, .float (.infinite negative) ∉ sequence.numbers) :
    ∃ text, sequence.document.json = .ok text := by
  rw [← failure?_eq_none_iff, failure?_document_of_ofText built]
  exact numberFailure?_eq_none built (List.Subset.refl _) finite

theorem document_fault {front back : List Number} {negative : Bool}
    (listed : sequence.numbers = front ++ .float (.infinite negative) :: back)
    (finite : ∀ sign, .float (.infinite sign) ∉ front) :
    sequence.document.json = .error (.notFinite (.infinite negative)) := by
  have member : front ⊆ sequence.numbers := by
    rw [listed]
    exact List.subset_append_left _ _
  rw [← failure?_eq_some_iff, failure?_document_of_ofText built, listed, List.findSome?_append,
    numberFailure?_eq_none built member finite, List.findSome?_cons,
    Value.numberFailure?_infinite]
  rfl

end OfText

end Sequence

end Progressions
