import Progressions.Proofs.Grammar.Printing
import Progressions.Proofs.Interpretation.Agreement
import Progressions.Proofs.Pattern.Links
import Progressions.Proofs.Stream.States
import Progressions.Proofs.Stream.Termination

/-!
# Comparable values

Numbers beyond the finite ones are infinite, and numbers too small are zero, so a step may be
applied to a number that it has no result with: two infinities of different signs have no sum, and
an infinity and zero have no product.  `Pattern.Clash` lists these pairs.

A move does not lead to such a pair unless it starts from one (`clash_of_operation`), and the last
number makes none with the step that leads to it.  So no term is not-a-number, and each has a place
to be compared with the bound.
-/

set_option autoImplicit false

namespace Progressions

/-! ## Clashes -/

namespace Pattern

/-- Two numbers that the pattern makes not-a-number of, although neither of them is. -/
inductive Clash : Pattern → Binary64 → Binary64 → Prop
  | opposite {left right : Bool} (different : left ≠ right) :
    Clash .arithmetic (.infinite left) (.infinite right)
  | infiniteByZero {left right : Bool} {magnitude : Magnitude} (zero : magnitude.units = 0) :
    Clash .geometric (.infinite left) (.finite right magnitude)
  | zeroByInfinite {left right : Bool} {magnitude : Magnitude} (zero : magnitude.units = 0) :
    Clash .geometric (.finite left magnitude) (.infinite right)

variable {pattern : Pattern} {left right : Binary64}

theorem Clash.exists_infinite (clash : pattern.Clash left right) :
    ∃ negative, left = .infinite negative ∨ right = .infinite negative := by
  cases clash with
  | opposite => exact ⟨_, .inl rfl⟩
  | infiniteByZero => exact ⟨_, .inl rfl⟩
  | zeroByInfinite => exact ⟨_, .inr rfl⟩

theorem operation_ne_nan (leftComparable : left ≠ .nan) (rightComparable : right ≠ .nan)
    (apart : ¬ pattern.Clash left right) : pattern.operation left right ≠ .nan := by
  cases left with
  | nan => exact absurd rfl leftComparable
  | infinite leftNegative => cases right with
    | nan => exact absurd rfl rightComparable
    | infinite rightNegative => cases pattern with
      | arithmetic =>
        have same : leftNegative = rightNegative :=
          Decidable.not_not.mp fun different => apart (.opposite different)
        simp only [operation, Binary64.add, if_pos same, ne_eq, reduceCtorEq, not_false_eq_true]
      | geometric => simp only [operation, Binary64.mul, ne_eq, reduceCtorEq, not_false_eq_true]
    | finite rightNegative magnitude => cases pattern with
      | arithmetic => simp only [operation, Binary64.add, ne_eq, reduceCtorEq, not_false_eq_true]
      | geometric =>
        have nonzero : magnitude.units ≠ 0 := fun zero => apart (.infiniteByZero zero)
        simp only [operation, Binary64.mul, if_neg nonzero, ne_eq, reduceCtorEq,
          not_false_eq_true]
  | finite leftNegative magnitude => cases right with
    | nan => exact absurd rfl rightComparable
    | infinite rightNegative => cases pattern with
      | arithmetic => simp only [operation, Binary64.add, ne_eq, reduceCtorEq, not_false_eq_true]
      | geometric =>
        have nonzero : magnitude.units ≠ 0 := fun zero => apart (.zeroByInfinite zero)
        simp only [operation, Binary64.mul, if_neg nonzero, ne_eq, reduceCtorEq,
          not_false_eq_true]
    | finite rightNegative other => cases pattern with
      | arithmetic =>
        rw [operation, Binary64.add]
        exact Binary64.round_ne_nan _ _ _
      | geometric =>
        rw [operation, Binary64.mul]
        exact Binary64.round_ne_nan _ _ _

end Pattern

theorem Binary64.round_zero (negative : Bool) (denominator : Nat) :
    ∃ magnitude, round negative 0 denominator = .finite negative magnitude ∧
      magnitude.units = 0 := by
  have zero := nearestUnits_zero denominator
  have below : nearestUnits 0 denominator < unitsCeiling := by
    rw [zero]
    decide +kernel
  exact ⟨_, dif_pos below, zero⟩

namespace Pattern

variable {pattern : Pattern} {left right : Binary64}

/-- A result clashes with the right operand only if the left one did before. -/
theorem clash_of_operation (comparable : pattern.operation left right ≠ .nan)
    (clash : pattern.Clash (pattern.operation left right) right) : pattern.Clash left right := by
  generalize isResult : pattern.operation left right = result at comparable clash
  cases clash with
  | @opposite resultNegative rightNegative different =>
    -- A sum with an infinity is that infinity, if it is a number.
    exfalso
    rw [operation] at isResult
    cases left with
    | nan => cases isResult
    | infinite leftNegative =>
      rw [Binary64.add] at isResult
      split at isResult
      · next same => exact different ((Binary64.infinite.inj isResult).symm.trans same)
      · cases isResult
    | finite => exact different (Binary64.infinite.inj isResult).symm
  | @infiniteByZero resultNegative rightNegative magnitude zero =>
    -- A product with zero is infinite for no left operand.
    rw [operation] at isResult
    cases left with
    | nan => cases isResult
    | infinite => exact .infiniteByZero zero
    | finite leftNegative leftMagnitude =>
      rw [Binary64.mul, zero, Nat.mul_zero] at isResult
      obtain ⟨product, rounded, -⟩ :=
        Binary64.round_zero (leftNegative != rightNegative) unitsPerOne
      rw [rounded] at isResult
      cases isResult
  | @zeroByInfinite resultNegative rightNegative magnitude zero =>
    rw [operation] at isResult
    cases left with
    | nan => cases isResult
    | infinite => cases isResult
    | finite leftNegative leftMagnitude =>
      rw [Binary64.mul] at isResult
      split at isResult <;> cases isResult

/-! ## The last number -/

section LastNumber

variable {numbers : List Number} {step : Number} {near : Binary64}

theorem ratio_of_infinite_last {negative : Bool} (several : 2 ≤ numbers.length)
    (nonempty : numbers ≠ []) (common : commonStep ratio numbers = .ok (some step))
    (comparable : step ≠ .float .nan)
    (isLast : numbers.getLast nonempty = .float (.infinite negative)) :
    ∃ sign, step = .float (.infinite sign) := by
  obtain ⟨before, found, linked, same⟩ := commonStep_last several nonempty common
  have divided := ratio_eq_some linked
  rw [isLast] at divided
  rcases Number.div_eq_ok divided with ⟨whole, other, isInteger, -⟩ | ⟨left, right, isLeft, -, rfl⟩
  · cases isInteger
  · rw [← Except.ok.inj isLeft] at same
    cases right with
    | nan =>
      rcases same with isStep | same
      · exact absurd isStep.symm comparable
      · cases same
    | infinite sign =>
      rcases same with isStep | same
      · exact absurd isStep.symm comparable
      · cases same
    | finite sign magnitude =>
      refine ⟨negative != sign, ?_⟩
      rcases same with isStep | same
      · exact isStep.symm
      · exact Number.right_eq_of_equals_infinite same

theorem ratio_of_zero_last {negative sign : Bool} {magnitude : Magnitude}
    (several : 2 ≤ numbers.length) (nonempty : numbers ≠ [])
    (common : commonStep ratio numbers = .ok (some (.float (.infinite sign))))
    (converts : (numbers.getLast nonempty).toBinary64 = .ok (.finite negative magnitude)) :
    magnitude.units ≠ 0 := by
  intro zero
  obtain ⟨before, found, linked, same⟩ := commonStep_last several nonempty common
  have isInfinite : found = .float (.infinite sign) := by
    rcases same with isStep | same
    · exact isStep
    · rw [Number.equals_comm] at same
      exact Number.right_eq_of_equals_infinite same
  have divided := ratio_eq_some linked
  rw [isInfinite] at divided
  rcases Number.div_eq_ok divided with
    ⟨whole, other, isLast, isBefore, -⟩ | ⟨left, right, isLeft, -, isQuotient⟩
  · rw [isLast, isBefore] at divided
    obtain ⟨-, isQuotient, finite⟩ := Number.div_int_eq_ok divided
    exact finite sign (Number.float.inj isQuotient).symm
  · obtain rfl := Except.ok.inj (converts.symm.trans isLeft)
    have quotient := (Number.float.inj isQuotient).symm
    cases right with
    | nan => cases quotient
    | infinite rightNegative =>
      obtain ⟨rounded, isRounded, -⟩ := Binary64.round_zero (negative != rightNegative) 1
      rw [Binary64.div, isRounded] at quotient
      cases quotient
    | finite rightNegative divisor =>
      rw [Binary64.div, zero, if_pos rfl, Nat.zero_mul] at quotient
      obtain ⟨rounded, isRounded, -⟩ :=
        Binary64.round_zero (negative != rightNegative) divisor.units
      rw [isRounded] at quotient
      split at quotient <;> cases quotient

end LastNumber

end Pattern

/-! ## Moves -/

namespace Number

variable {number : Number} {near : Binary64}

theorem toBinary64_ne_nan (comparable : number ≠ .float .nan)
    (converts : number.toBinary64 = .ok near) : near ≠ .nan := by
  cases number with
  | int whole =>
    rw [(ofInt_of_toBinary64 converts).1]
    exact Binary64.round_ne_nan _ _ _
  | float value =>
    rintro rfl
    exact comparable (congrArg Number.float (Except.ok.inj converts))

theorem eq_infinite_of_toBinary64 {negative : Bool}
    (converts : number.toBinary64 = .ok (.infinite negative)) :
    number = .float (.infinite negative) := by
  cases number with
  | int whole =>
    obtain ⟨isNear, finite⟩ := ofInt_of_toBinary64 converts
    exact absurd isNear.symm (finite negative)
  | float value => exact congrArg Number.float (Except.ok.inj converts)

theorem exists_compare? {left right : Number} (leftComparable : left ≠ .float .nan)
    (rightComparable : right ≠ .float .nan) : ∃ order, left.compare? right = some order := by
  obtain ⟨here, isHere⟩ := exists_value leftComparable
  obtain ⟨there, isThere⟩ := exists_value rightComparable
  exact ⟨_, compare?_eq_cmp isHere isThere⟩

end Number

namespace Progression

variable {progression : Progression} {start current moved : Number}

/-- The step and the number it is applied to are numbers with a result. -/
structure Accords (progression : Progression) (current : Number) : Prop where
  comparable : current ≠ .float .nan
  step : progression.step ≠ .float .nan
  apart : ∀ left right, current.toBinary64 = .ok left → progression.step.toBinary64 = .ok right →
    ¬ progression.pattern.Clash left right

theorem accords_of_next (accords : progression.Accords current)
    (moves : progression.next current = .ok moved) : progression.Accords moved := by
  rcases next_eq_ok moves with
    ⟨first, second, -, stepped, -, rfl⟩ | ⟨left, right, -, leftConverts, converts, rfl⟩
  · refine ⟨nofun, accords.step, ?_⟩
    -- No integer is rounded to an infinity.
    rintro left right leftConverts converts clash
    rw [stepped] at converts
    obtain ⟨isLeft, leftFinite⟩ := Number.ofInt_of_toBinary64 leftConverts
    obtain ⟨isRight, finite⟩ := Number.ofInt_of_toBinary64 converts
    obtain ⟨negative, infinite | infinite⟩ := clash.exists_infinite
    · exact leftFinite negative (isLeft.symm.trans infinite)
    · exact finite negative (isRight.symm.trans infinite)
  · have comparable : progression.pattern.operation left right ≠ .nan :=
      Pattern.operation_ne_nan (Number.toBinary64_ne_nan accords.comparable leftConverts)
        (Number.toBinary64_ne_nan accords.step converts)
        (accords.apart left right leftConverts converts)
    refine ⟨comparable ∘ Number.float.inj, accords.step, ?_⟩
    intro near other isNear isOther clash
    obtain rfl := Except.ok.inj isNear
    obtain rfl := Except.ok.inj (converts.symm.trans isOther)
    exact accords.apart left right leftConverts converts
      (Pattern.clash_of_operation comparable clash)

theorem accords_of_term (accords : progression.Accords start) (terms : Nat)
    (reached : progression.term start terms = .ok current) : progression.Accords current := by
  induction terms generalizing current with
  | zero =>
    rw [← Except.ok.inj reached]
    exact accords
  | succ terms inductionHypothesis =>
    rw [term] at reached
    obtain ⟨previous, earlier, moves⟩ := exists_of_bind_eq_ok reached
    exact accords_of_next (inductionHypothesis earlier) moves

end Progression

/-! ## Runs -/

namespace Sequence

variable {source : String} {sequence : Sequence} {progression : Progression} {value : Number}

/-- The last number is one that the step led to, so the step can be applied to it. -/
theorem accords_last (built : ofText source = .ok sequence)
    (goesOn : sequence.progression = some progression) :
    progression.Accords sequence.last := by
  have comparable := comparable_of_ofText built
  have step : progression.step ≠ .float .nan :=
    comparable.step progression.step (by simp [Sequence.step, goesOn])
  obtain ⟨enough, classified⟩ := classified_of_ofText built goesOn
  have several : 2 ≤ sequence.numbers.length := by omega
  refine ⟨comparable.numbers _ (List.getLast_mem sequence.nonempty), step, ?_⟩
  intro left right leftConverts converts clash
  rcases classified with ⟨arithmetic, common⟩ | ⟨geometric, -, common⟩
  · rw [arithmetic] at clash
    cases clash with
    | @opposite leftNegative rightNegative different =>
      have isLast := Number.eq_infinite_of_toBinary64 leftConverts
      have isStep := Pattern.step_of_infinite_last several sequence.nonempty common step isLast
      rw [isStep] at converts
      exact different (Binary64.infinite.inj (Except.ok.inj converts))
  · rw [geometric] at clash
    obtain ⟨ratio, isRatio⟩ := Pattern.step_of_ratio several common
    rw [isRatio] at converts
    obtain rfl := Except.ok.inj converts
    cases clash with
    | infiniteByZero zero =>
      have isLast := Number.eq_infinite_of_toBinary64 leftConverts
      obtain ⟨sign, isStep⟩ :=
        Pattern.ratio_of_infinite_last several sequence.nonempty common step isLast
      rw [isRatio] at isStep
      cases isStep
    | zeroByInfinite zero =>
      rw [isRatio] at common
      exact Pattern.ratio_of_zero_last several sequence.nonempty common leftConverts zero

theorem reference_ne_nan (built : ofText source = .ok sequence) {place : Nat}
    (given : sequence.reference place = .ok (some value)) : value ≠ .float .nan := by
  by_cases within : place < sequence.numbers.length
  · rw [reference_of_lt within] at given
    obtain rfl := Option.some.inj (Except.ok.inj given)
    exact (comparable_of_ofText built).numbers _ (List.getElem_mem within)
  · obtain ⟨terms, rfl⟩ := Nat.exists_eq_add_of_le (Nat.le_of_not_lt within)
    cases goesOn : sequence.progression with
    | none =>
      rw [reference_itemized goesOn (Nat.le_add_right _ _)] at given
      cases given
    | some progression =>
      obtain ⟨reached, -⟩ := (reference_eq_value_iff goesOn).mp given
      exact (Progression.accords_of_term (accords_last built goesOn) (terms + 1) reached).comparable

theorem current_ne_nan (built : ofText source = .ok sequence) {count : Nat} {state : Stream.State}
    (stands : Stands sequence count state) (isCurrent : state.current = some value) :
    value ≠ .float .nan := by
  cases stands with
  | replaying within => cases isCurrent
  | ended itemized past => cases isCurrent
  | progressing terms stalled goesOn reached inside stalls moved =>
    obtain rfl := Option.some.inj isCurrent
    exact (Progression.accords_of_term (accords_last built goesOn) terms reached).comparable
  | passed terms calls goesOn reached inside beyond =>
    obtain rfl := Option.some.inj isCurrent
    exact (Progression.accords_of_term (accords_last built goesOn) (terms + 1) reached).comparable

/-- No number, step or value of a text that is read as a sequence is not-a-number, whatever became
infinite or zero on the way.  So the step has a direction, and every value that an iterator comes
to has an order with the bound, the one beyond it too. -/
theorem values_comparable (built : ofText source = .ok sequence) :
    sequence.Comparable ∧
      (∀ progression ∈ sequence.progression,
        ∃ order, progression.step.compare? progression.pivot = some order) ∧
      ∀ count,
        (∀ value, .ok (some value) ∈ sequence.outcomes count → value ≠ .float .nan) ∧
        ∀ current, (sequence.stateAfter count).current = some current →
          current ≠ .float .nan ∧
            ∀ bound ∈ sequence.bound, ∃ order, current.compare? bound = some order := by
  have comparable := comparable_of_ofText built
  refine ⟨comparable, ?_, ?_⟩
  · intro progression goesOn
    have step : progression.step ≠ .float .nan :=
      comparable.step progression.step (by
        rw [Sequence.step, Option.mem_def.mp goesOn]
        rfl)
    have pivot : progression.pivot ≠ .float .nan := by
      unfold Progression.pivot
      split <;> simp only [ne_eq, reduceCtorEq, not_false_eq_true]
    exact Number.exists_compare? step pivot
  · intro count
    constructor
    · intro value given
      rw [outcomes_eq_reference, List.mem_map] at given
      obtain ⟨place, -, given⟩ := given
      exact reference_ne_nan built (mapError_eq_ok_iff.mp given)
    · intro current isCurrent
      have ordinary := current_ne_nan built (stands_stateAfter sequence count) isCurrent
      exact ⟨ordinary, fun bound isBound =>
        Number.exists_compare? ordinary (comparable.bound bound isBound)⟩

/-- Decimals too large for a finite number on both sides of one. -/
def overOneSentence : Sentence where
  first := ⟨.minus, .ofNat (10 ^ 309), some (.ofNat 0)⟩
  further := [.separated .bare (.ofInt 1),
    .separated .bare ⟨.absent, .ofNat (10 ^ 309), some (.ofNat 0)⟩]
  tail := some ⟨.bare, some (.bare, .finite (.ofInt 5))⟩
  enough _ := Nat.le_refl 3

def overOne : Sequence :=
  ⟨[.float (.infinite true), .int 1, .float (.infinite false)],
    some ⟨.arithmetic, .float (.infinite false), some (.int 5)⟩, List.cons_ne_nil _ _⟩

theorem values_comparable_overOne :
    ofText (String.ofList overOneSentence.text) = .ok overOne ∧ overOne.Comparable ∧
      (overOne.stateAfter 4).current = some (.float (.infinite false)) ∧
      ∃ order, (Number.float (.infinite false)).compare? (.int 5) = some order := by
  have built : ofText (String.ofList overOneSentence.text) = .ok overOne := by
    have within : Lexeme.IntegersWithin digitLimit overOneSentence.text := by
      rw [Lexeme.IntegersWithin, overOneSentence.words_text]
      decide +kernel
    have common : commonDifference overOneSentence.numbers =
        .ok (some (.float (.infinite false))) := by
      decide +kernel
    have isOverOne : (⟨overOneSentence.numbers, some ⟨.arithmetic, .float (.infinite false),
        overOneSentence.bound⟩, List.cons_ne_nil _ _⟩ : Sequence) = overOne := by
      decide +kernel
    rw [← isOverOne]
    exact ofText_arithmetic_sentence within rfl common
  have passed : (overOne.stateAfter 4).current = some (.float (.infinite false)) := by
    decide +kernel
  obtain ⟨comparable, -, runs⟩ := values_comparable built
  obtain ⟨-, ordered⟩ := (runs 4).2 _ passed
  exact ⟨built, comparable, passed, ordered (.int 5) rfl⟩

end Sequence

end Progressions
