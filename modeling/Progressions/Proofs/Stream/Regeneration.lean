import Progressions.Proofs.Number.RelativeError
import Progressions.Proofs.Pattern.Links
import Progressions.Proofs.Stream.Direction
import Progressions.Proofs.Stream.Extent
import Progressions.Proofs.Stream.Powers

/-!
# The step leads along the numbers

Every two neighbours among the numbers are linked by the step, up to equality of numbers.  So the
step leads from each integer to the next exactly where it is a difference.  A ratio is rounded once
and the product with it again: it leads to the next integer where that product is exact, and
otherwise to a number that differs from it by no more than one part in `2 ^ 51`.
-/

set_option autoImplicit false

namespace Progressions

/-! ## Products with a rounded quotient -/

namespace Binary64

variable {first second : Int} {ratio : Binary64} {value : ℚ}

theorem one_le_abs_cast (nonzero : first ≠ 0) : 1 ≤ |(first : ℚ)| := by
  rw [← Int.cast_abs]
  exact Int.cast_one_le_of_pos (abs_pos.mpr nonzero)

theorem abs_cast_lt {ceiling : Nat} (small : first.natAbs < ceiling) : |(first : ℚ)| < ceiling := by
  rw [← Int.cast_abs, Int.abs_eq_natAbs, Int.cast_natCast]
  exact Nat.cast_lt.mpr small

theorem value_of_equals
    (same : (Number.float (ofQuotient second first)).equals (.float ratio) = true)
    (isValue : (Number.float (ofQuotient second first)).value? = some (.ofRat value)) :
    (Number.float ratio).value? = some (.ofRat value) := by
  obtain ⟨place, isPlace⟩ := Number.exists_value (Number.right_ne_nan_of_equals same)
  rw [isPlace, ← (Number.equals_value_iff isValue isPlace).mp same]

theorem exists_close_quotient (firstNonzero : first ≠ 0) (secondNonzero : second ≠ 0)
    (firstSmall : first.natAbs < normalCeiling) (secondSmall : second.natAbs < normalCeiling) :
    ∃ value, (Number.float (ofQuotient second first)).value? = some (.ofRat value) ∧
      Close 1 ((second : ℚ) / first) value := by
  have quotient := approximates_ofQuotient second firstNonzero
  have divisor := one_le_abs_cast firstNonzero
  have inside : |(second : ℚ) / first| < roundingCeiling := by
    rw [abs_div]
    have shrinks := div_le_self (abs_nonneg (second : ℚ)) divisor
    have size := abs_cast_lt secondSmall
    have ceiling := normalCeiling_le_roundingCeiling
    have nonneg := abs_nonneg (second : ℚ)
    linarith
  have normal : leastNormal ≤ |(second : ℚ) / first| := by
    have positive : 0 ≤ leastNormal := div_nonneg (by norm_num) (Nat.cast_nonneg _)
    rw [abs_div, le_div_iff₀ (lt_of_lt_of_le one_pos divisor)]
    calc leastNormal * |(first : ℚ)|
        ≤ leastNormal * normalCeiling :=
          mul_le_mul_of_nonneg_left (abs_cast_lt firstSmall).le positive
      _ = 1 := leastNormal_mul_normalCeiling
      _ ≤ |(second : ℚ)| := one_le_abs_cast secondNonzero
  obtain ⟨value, isValue⟩ := quotient.exists_value inside
  exact ⟨value, isValue, quotient.close normal isValue⟩

theorem exists_close_ofInt (nonzero : first ≠ 0) (small : first.natAbs < normalCeiling) :
    ∃ value, (Number.float (ofInt first)).value? = some (.ofRat value) ∧ Close 1 first value := by
  have whole := approximates_ofInt first
  have size := one_le_abs_cast nonzero
  have ceiling := normalCeiling_le_roundingCeiling
  have below := abs_cast_lt small
  have nonneg := abs_nonneg (first : ℚ)
  have half := leastNormal_le_half
  obtain ⟨value, isValue⟩ := whole.exists_value (by linarith)
  exact ⟨value, isValue, whole.close (by linarith) isValue⟩

/-- An integer times its rounded quotient is the dividend again, up to three roundings. -/
theorem exists_close_product (firstNonzero : first ≠ 0) (firstSmall : first.natAbs < normalCeiling)
    (secondSmall : second.natAbs < normalCeiling)
    (same : (Number.float (ofQuotient second first)).equals (.float ratio) = true) :
    ∃ value, (Number.float (mul (ofInt first) ratio)).value? = some (.ofRat value) ∧
      Close 3 second value := by
  obtain ⟨factor, isFactor, closeFactor⟩ := exists_close_ofInt firstNonzero firstSmall
  by_cases secondNonzero : second ≠ 0
  · obtain ⟨quotient, isQuotient, closeQuotient⟩ :=
      exists_close_quotient firstNonzero secondNonzero firstSmall secondSmall
    have product := approximates_mul isFactor (value_of_equals same isQuotient)
    have divisorNonzero : (first : ℚ) ≠ 0 := Int.cast_ne_zero.mpr firstNonzero
    have close : Close 2 second (factor * quotient) := by
      have both := closeFactor.mul closeQuotient
      rwa [mul_div_cancel₀ _ divisorNonzero] at both
    have size := one_le_abs_cast secondNonzero
    have below := abs_cast_lt secondSmall
    have ceiling := normalCeiling_le_roundingCeiling
    have half := leastNormal_le_half
    have small : growth 2 ≤ 3 / 2 := by norm_num [growth]
    have inside : |factor * quotient| < roundingCeiling := by
      have above := close.abs_le
      have room := mul_le_mul_of_nonneg_right small (abs_nonneg (second : ℚ))
      linarith
    have normal : leastNormal ≤ |factor * quotient| := by
      have reached := close.le_abs
      have room := mul_le_mul_of_nonneg_right (sub_le_sub_left small 2) (abs_nonneg (second : ℚ))
      linarith
    obtain ⟨value, isValue⟩ := product.exists_value inside
    have closer := close.trans (product.close normal isValue)
    exact ⟨value, isValue, closer⟩
  · obtain rfl := not_not.mp secondNonzero
    have zero : IsValue 0 := by
      rw [← Int.cast_zero]
      exact isValue_int (Nat.zero_le _)
    have quotient := approximates_ofQuotient 0 firstNonzero
    rw [Int.cast_zero, zero_div] at quotient
    have product := approximates_mul isFactor (value_of_equals same (quotient.value_eq zero))
    rw [mul_zero] at product
    exact ⟨0, product.value_eq zero, by simp [Close]⟩

theorem product_eq (isRatio : (Number.float ratio).value? = some (.ofRat value))
    (exact : value * first = second) (firstValue : IsValue first) (secondValue : IsValue second) :
    (Number.float (mul (ofInt first) ratio)).equals (.int second) = true := by
  have factor := (approximates_ofInt first).value_eq firstValue
  have product := approximates_mul factor isRatio
  rw [mul_comm, exact] at product
  exact (Number.equals_value_iff (product.value_eq secondValue) rfl).mpr rfl

end Binary64

namespace Sequence

variable {source : String} {sequence : Sequence} {progression : Progression} {wholes : List Int}
  {place : Nat}

theorem linked_of_ofText {link : Pattern.Link} (built : ofText source = .ok sequence)
    (goesOn : sequence.progression = some progression)
    (common : Pattern.commonStep link sequence.numbers = .ok (some progression.step)) :
    sequence.numbers.IsChain (Pattern.Linked link progression.step) := by
  have comparable : progression.step ≠ .float .nan :=
    (comparable_of_ofText built).step progression.step (by simp [Sequence.step, goesOn])
  have enough := (classified_of_ofText built goesOn).1
  exact Pattern.linked_of_commonStep (by omega) comparable common

theorem next_of_difference {step : Number} (several : 2 ≤ wholes.length)
    (arithmetic : progression.pattern = .arithmetic) (stepped : progression.step = step)
    (common : commonDifference (wholes.map .int) = .ok (some step))
    (within : place + 1 < wholes.length) :
    progression.next (.int wholes[place]) = .ok (.int wholes[place + 1]) := by
  obtain ⟨difference, rfl, evenly⟩ := (Pattern.commonDifference_int several step).mp common
  have apart : wholes[place + 1] - wholes[place] = difference := evenly.getElem place within
  rw [Progression.next, arithmetic, stepped, ← apart]
  change Except.ok (Number.int (wholes[place] + (wholes[place + 1] - wholes[place]))) = _
  rw [add_sub_cancel]

theorem next_of_ratio {ratio : Binary64} {first second : Int}
    (geometric : progression.pattern = .geometric) (stepped : progression.step = .float ratio)
    (linked : Pattern.Linked Pattern.ratio progression.step (.int first) (.int second))
    (inside : first.natAbs < roundingCeiling) :
    ∃ moved : Binary64, progression.next (.int first) = .ok (.float moved) ∧
      (∀ value : ℚ, progression.step.value? = some (.ofRat value) → value * first = second →
        Binary64.IsValue first → Binary64.IsValue second →
          (Number.float moved).equals (.int second) = true) ∧
      (first.natAbs < Binary64.normalCeiling → second.natAbs < Binary64.normalCeiling →
        ∃ value : ℚ, (Number.float moved).value? = some (.ofRat value) ∧
          |value - second| ≤ |(second : ℚ)| / 2 ^ 51) := by
  obtain ⟨nonzero, same⟩ := Pattern.linked_ratio_int linked
  rw [stepped] at same ⊢
  refine ⟨Binary64.mul (Binary64.ofInt first) ratio, ?_, ?_, ?_⟩
  · rw [Progression.next_int stepped inside, geometric, Pattern.operation_geometric]
  · intro value isValue exact firstValue secondValue
    exact Binary64.product_eq isValue exact firstValue secondValue
  · intro firstSmall secondSmall
    obtain ⟨value, isValue, close⟩ :=
      Binary64.exists_close_product nonzero firstSmall secondSmall same
    exact ⟨value, isValue, close.abs_sub_le_of_three⟩

/-- The step of a sequence of integers leads from each of them to the next if it is a difference.
If it is a ratio, it fails where the integer is too large to be rounded; it leads to the next
integer where that is the exact product and both are binary64 numbers; and where both are of
moderate size, it leads at least close to it. -/
theorem nextValue_regenerates (built : ofText source = .ok sequence)
    (goesOn : sequence.progression = some progression)
    (integers : sequence.numbers = wholes.map .int) (within : place + 1 < wholes.length) :
    (progression.pattern = .arithmetic →
      sequence.nextValue (some (.int wholes[place])) = .ok (.int wholes[place + 1])) ∧
    (progression.pattern = .geometric →
      (roundingCeiling ≤ wholes[place].natAbs →
        sequence.nextValue (some (.int wholes[place])) = .error (.number .operandTooLarge)) ∧
      (wholes[place].natAbs < roundingCeiling → ∃ moved : Binary64,
        sequence.nextValue (some (.int wholes[place])) = .ok (.float moved) ∧
        (∀ ratio : ℚ, progression.step.value? = some (.ofRat ratio) →
          ratio * wholes[place] = wholes[place + 1] → Binary64.IsValue wholes[place] →
            Binary64.IsValue wholes[place + 1] →
              (Number.float moved).equals (.int wholes[place + 1]) = true) ∧
        (wholes[place].natAbs < Binary64.normalCeiling →
          wholes[place + 1].natAbs < Binary64.normalCeiling →
            ∃ value : ℚ, (Number.float moved).value? = some (.ofRat value) ∧
              |value - wholes[place + 1]| ≤ |(wholes[place + 1] : ℚ)| / 2 ^ 51))) := by
  obtain ⟨enough, common⟩ := classified_of_ofText built goesOn
  rw [nextValue_eq goesOn]
  rcases common with ⟨arithmetic, differences⟩ | ⟨geometric, -, ratios⟩
  · rw [integers] at differences
    refine ⟨fun _ => ?_, fun geometric => ?_⟩
    · rw [next_of_difference (by omega) arithmetic rfl differences within]
      rfl
    · rw [arithmetic] at geometric
      cases geometric
  · refine ⟨fun arithmetic => ?_, fun _ => ⟨fun tooLarge => ?_, fun inside => ?_⟩⟩
    · rw [geometric] at arithmetic
      cases arithmetic
    · obtain ⟨ratio, stepped⟩ := Pattern.step_of_ratio (by omega) ratios
      rw [Progression.next_of_tooLarge stepped tooLarge]
      rfl
    · obtain ⟨ratio, stepped⟩ := Pattern.step_of_ratio (by omega) ratios
      have chain := linked_of_ofText built goesOn ratios
      rw [integers, List.isChain_map] at chain
      obtain ⟨moved, next, exact, close⟩ :=
        next_of_ratio geometric stepped (chain.getElem place within) inside
      exact ⟨moved, by rw [next]; rfl, exact, close⟩

theorem nextValue_regenerates_thirds :
    ∃ sequence, ofText "9,15,25,..." = .ok sequence ∧ 1 + 1 < [(9 : Int), 15, 25].length ∧
      ∃ (moved : Binary64) (value : ℚ),
        sequence.nextValue (some (.int 15)) = .ok (.float moved) ∧
        (Number.float moved).value? = some (.ofRat value) ∧
        |value - (25 : Int)| ≤ |((25 : Int) : ℚ)| / 2 ^ 51 := by
  have built : ofText "9,15,25,..." = .ok ⟨[9, 15, 25].map .int,
      some ⟨.geometric, .float (Binary64.ofQuotient 15 9), none⟩, List.cons_ne_nil _ _⟩ := by
    decide +kernel
  have within : 1 + 1 < [(9 : Int), 15, 25].length := by decide
  obtain ⟨-, geometric⟩ := nextValue_regenerates built rfl rfl within
  obtain ⟨-, moves⟩ := geometric rfl
  have inside : (15 : Int).natAbs < roundingCeiling := by decide +kernel
  have firstSmall : (15 : Int).natAbs < Binary64.normalCeiling := by decide +kernel
  have secondSmall : (25 : Int).natAbs < Binary64.normalCeiling := by decide +kernel
  obtain ⟨moved, next, -, close⟩ := moves inside
  obtain ⟨value, isValue, near⟩ := close firstSmall secondSmall
  exact ⟨_, built, within, moved, value, next, isValue, near⟩

/-- Integers that go down by a ratio of one to forty-nine, which has no end in binary digits. -/
def fortyNinths : Sequence :=
  ⟨[2401, 49, 1].map .int,
    some ⟨.geometric, .float (Binary64.ofQuotient 49 2401), some (.int 0)⟩, List.cons_ne_nil _ _⟩

/-- The rounded ratio leads from forty-nine to the number before one, and an integer may be too
large for any ratio. -/
theorem not_every_number_regenerated :
    (ofText "2401,49,1,...,0" = .ok fortyNinths ∧
      fortyNinths.numbers = [2401, 49, 1].map .int ∧
      ∃ moved : Number, fortyNinths.nextValue (some (.int 49)) = .ok moved ∧
        moved.less (.int 1) = true ∧ moved.equals (.int 1) = false) ∧
    ∃ source sequence, specificationText ((powers (10 ^ 400) 10 3).map .int) (some (.int 0)) =
        .ok source ∧
      ofText source = .ok sequence ∧ sequence.numbers = (powers (10 ^ 400) 10 3).map .int ∧
      sequence.nextValue (some (.int (10 ^ 400))) = .error (.number .operandTooLarge) := by
  constructor
  · have built : ofText "2401,49,1,...,0" = .ok fortyNinths := by decide +kernel
    have next : fortyNinths.nextValue (some (.int 49)) =
        .ok (.float (Binary64.mul (Binary64.ofInt 49) (Binary64.ofQuotient 49 2401))) := by
      decide +kernel
    exact ⟨built, rfl, _, next, by decide +kernel, by decide +kernel⟩
  · have writable : ∀ whole ∈ powers (10 ^ 400) 10 3, (Number.int whole).writable = true := by
      decide +kernel
    have inside : (10 : Int).natAbs < roundingCeiling := by decide +kernel
    have tooLarge : roundingCeiling ≤ ((10 : Int) ^ 400).natAbs := by decide +kernel
    have boundWritable : (Number.int 0).writable = true := by decide +kernel
    have positive : (1 : Int) ≤ 10 ^ 400 := by decide +kernel
    obtain ⟨source, specification, written, accepted, lists⟩ :=
      Specification.exists_lists (by decide) writable boundWritable
    obtain ⟨sequence, built, numbers, goesOn⟩ :=
      ofText_powers positive (by decide) (Nat.le_refl 3) inside accepted lists
    have stepped : (Progression.byRatio 10 0).step = .float (Binary64.ofInt 10) := rfl
    have failing := Progression.next_of_tooLarge stepped tooLarge
    refine ⟨source, sequence, written, built, numbers, ?_⟩
    rw [nextValue_eq goesOn, failing]
    rfl

end Sequence

end Progressions
