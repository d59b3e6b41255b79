import Mathlib.Algebra.Order.Field.Basic
import Mathlib.Tactic.FieldSimp
import Mathlib.Tactic.Linarith
import Mathlib.Tactic.NormNum
import Mathlib.Tactic.Positivity
import Mathlib.Tactic.Ring
import Progressions.Proofs.Number.Exact
import Progressions.Proofs.Number.Nearest

/-!
# Rounded results

Every operation on binary64 numbers rounds its exact result: `Approximates` ties the two together,
with one lemma for each operation.  A rounded result lies on the same side of every binary64 value
as the exact one does (`Approximates.le_value`, `Approximates.value_le`), so it is the exact result
where that is a binary64 value itself.  Elsewhere it differs from it by at most the `2 ^ 53`rd part,
unless it is too small to have all its digits or too large to be finite.
-/

set_option autoImplicit false

namespace Progressions

namespace ExtendedRat

theorem ofRat_inj {left right : ℚ} : ofRat left = ofRat right ↔ left = right := by
  simp [ofRat]

theorem ofRat_ne_top (value : ℚ) : ofRat value ≠ ⊤ :=
  (WithBot.coe_lt_coe.mpr (WithTop.coe_lt_top value)).ne

theorem ofRat_ne_bot (value : ℚ) : ofRat value ≠ ⊥ := WithBot.coe_ne_bot

end ExtendedRat

namespace Binary64

/-! ## Values -/

/-- The rational number is one of the finite binary64 numbers. -/
def IsValue (value : ℚ) : Prop :=
  ∃ number : Binary64, (Number.float number).value? = some (.ofRat value)

/-- A size with a sign in front of it. -/
def signed : Bool → ℚ → ℚ
  | true, size => -size
  | false, size => size

theorem signed_zero (negative : Bool) : signed negative 0 = 0 := by
  cases negative <;> simp [signed]

theorem signed_not (negative : Bool) (size : ℚ) :
    signed (!negative) size = -signed negative size := by
  cases negative <;> simp [signed]

theorem signed_sub (negative : Bool) (left right : ℚ) :
    signed negative left - signed negative right = signed negative (left - right) := by
  cases negative <;> simp [signed]
  ring

theorem signed_mul (negative : Bool) (size factor : ℚ) :
    signed negative size * factor = signed negative (size * factor) := by
  cases negative <;> simp [signed]

theorem signed_div (negative : Bool) (size divisor : ℚ) :
    signed negative size / divisor = signed negative (size / divisor) := by
  cases negative <;> simp [signed, neg_div]

theorem signed_mul_signed (leftNegative rightNegative : Bool) (left right : ℚ) :
    signed leftNegative left * signed rightNegative right =
      signed (leftNegative != rightNegative) (left * right) := by
  cases leftNegative <;> cases rightNegative <;> simp [signed]

theorem signed_div_signed (leftNegative rightNegative : Bool) (left right : ℚ) :
    signed leftNegative left / signed rightNegative right =
      signed (leftNegative != rightNegative) (left / right) := by
  cases leftNegative <;> cases rightNegative <;> simp [signed, neg_div, div_neg]

theorem abs_signed (negative : Bool) (size : ℚ) : |signed negative size| = |size| := by
  cases negative <;> simp [signed]

theorem abs_signed_div (negative : Bool) (numerator denominator : Nat) :
    |signed negative ((numerator : ℚ) / denominator) / unitsPerOne| =
      (numerator : ℚ) / denominator / unitsPerOne := by
  rw [abs_div, abs_signed, abs_of_nonneg (div_nonneg (Nat.cast_nonneg _) (Nat.cast_nonneg _)),
    abs_of_pos Number.unitsPerOne_pos_rat]

theorem signedUnits_cast (negative : Bool) (magnitude : Magnitude) :
    (signedUnits negative magnitude : ℚ) = signed negative magnitude.units := by
  cases negative <;> simp [signedUnits, signed]

theorem value?_finite (negative : Bool) (magnitude : Magnitude) :
    (Number.float (.finite negative magnitude)).value? =
      some (.ofRat (signed negative magnitude.units / unitsPerOne)) := by
  rw [← signedUnits_cast]
  rfl

theorem exists_finite {number : Binary64} {value : ℚ}
    (isValue : (Number.float number).value? = some (.ofRat value)) :
    ∃ negative magnitude, number = .finite negative magnitude ∧
      value = signed negative magnitude.units / unitsPerOne := by
  cases number with
  | nan => cases isValue
  | infinite negative =>
    have same := Option.some.inj isValue
    cases negative with
    | false => exact absurd same.symm (ExtendedRat.ofRat_ne_top value)
    | true => exact absurd same.symm (ExtendedRat.ofRat_ne_bot value)
  | finite negative magnitude =>
    rw [value?_finite] at isValue
    exact ⟨negative, magnitude, rfl, (ExtendedRat.ofRat_inj.mp (Option.some.inj isValue)).symm⟩

theorem IsValue.exists_magnitude {value : ℚ} (isValue : IsValue value) :
    ∃ (negative : Bool) (magnitude : Magnitude),
      value = signed negative magnitude.units / unitsPerOne := by
  obtain ⟨number, found⟩ := isValue
  obtain ⟨negative, magnitude, -, units⟩ := exists_finite found
  exact ⟨negative, magnitude, units⟩

/-- Integers with 53 binary digits, and the next one, are binary64 numbers. -/
theorem representable_ones {whole : Nat} (short : whole ≤ 2 ^ 53) :
    Representable (whole * unitsPerOne) := by
  have ceiling : 2 ^ 53 * unitsPerOne < unitsCeiling := by decide +kernel
  refine ⟨Nat.lt_of_le_of_lt (Nat.mul_le_mul_right _ short) ceiling, ?_⟩
  rcases Nat.lt_or_eq_of_le short with below | isPower
  · have unit : unitsPerOne = Nat.pow 2 1074 := by decide +kernel
    exact ⟨whole, 1074, below, congrArg (whole * ·) unit⟩
  · subst isPower
    exact ⟨1, 1127, by decide, by decide +kernel⟩

theorem signed_natAbs (whole : Int) : signed (decide (whole < 0)) whole.natAbs = whole := by
  by_cases negative : whole < 0
  · have size : ((whole.natAbs : Int) : ℚ) = ((-whole : Int) : ℚ) := by
      rw [Int.ofNat_natAbs_of_nonpos (Int.le_of_lt negative)]
    rw [Int.cast_natCast, Int.cast_neg] at size
    simp [signed, negative, size]
  · have size : ((whole.natAbs : Int) : ℚ) = (whole : ℚ) := by
      rw [Int.natAbs_of_nonneg (Int.not_lt.mp negative)]
    rw [Int.cast_natCast] at size
    simp [signed, negative, size]

theorem isValue_int {whole : Int} (short : whole.natAbs ≤ 2 ^ 53) : IsValue whole := by
  refine ⟨.finite (decide (whole < 0)) ⟨whole.natAbs * unitsPerOne, representable_ones short⟩, ?_⟩
  rw [value?_finite]
  congr 2
  rw [Nat.cast_mul, ← signed_mul, signed_natAbs,
    mul_div_cancel_right₀ _ Number.unitsPerOne_pos_rat.ne']

/-! ## Rounding -/

/-- The number is what the exact value is rounded to; the sign of a zero is left open. -/
def Approximates (exact : ℚ) (near : Binary64) : Prop :=
  ∃ (negative : Bool) (numerator denominator : Nat), 0 < denominator ∧
    near = round negative numerator denominator ∧
      exact = signed negative (numerator / denominator) / unitsPerOne

/-- The least positive value with all significant digits. -/
def leastNormal : ℚ := 2 ^ 52 / unitsPerOne

theorem nearestUnits_lt_unitsCeiling_iff {numerator denominator : Nat}
    (positive : 0 < denominator) :
    nearestUnits numerator denominator < unitsCeiling ↔
      numerator < roundingCeiling * unitsPerOne * denominator := by
  rw [unitsCeiling_eq, nearestUnits_lt_iff positive, ← roundingCeiling_mul_unitsPerOne]

section Sides

variable {numerator denominator : Nat} {magnitude : Magnitude}

theorem le_nearestUnits_of_le (positive : 0 < denominator)
    (below : (magnitude.units : ℚ) ≤ numerator / denominator) :
    magnitude.units ≤ nearestUnits numerator denominator := by
  rw [le_div_iff₀ (Nat.cast_pos.mpr positive)] at below
  norm_cast at below
  refine Nat.le_of_not_lt fun nearer => ?_
  have closest : gap numerator denominator (nearestUnits numerator denominator) ≤
      gap numerator denominator magnitude.units :=
    (nearestUnits_closest positive magnitude.representable.2).1
  have apart := Nat.mul_lt_mul_of_pos_right nearer positive
  unfold gap at closest
  omega

theorem nearestUnits_le_of_le (positive : 0 < denominator)
    (above : (numerator : ℚ) / denominator ≤ magnitude.units) :
    nearestUnits numerator denominator ≤ magnitude.units := by
  rw [div_le_iff₀ (Nat.cast_pos.mpr positive)] at above
  norm_cast at above
  refine Nat.le_of_not_lt fun farther => ?_
  have closest : gap numerator denominator (nearestUnits numerator denominator) ≤
      gap numerator denominator magnitude.units :=
    (nearestUnits_closest positive magnitude.representable.2).1
  have apart := Nat.mul_lt_mul_of_pos_right farther positive
  unfold gap at closest
  omega

/-- What the exact quotient reaches, the rounded one does; where both are negative it is finite. -/
theorem signed_le_nearestUnits (positive : 0 < denominator) {negative valueNegative : Bool}
    (reached : signed valueNegative magnitude.units ≤ signed negative (numerator / denominator)) :
    signed valueNegative magnitude.units ≤ signed negative (nearestUnits numerator denominator) ∧
      (negative = true → nearestUnits numerator denominator ≤ magnitude.units) := by
  have size : (0 : ℚ) ≤ magnitude.units := Nat.cast_nonneg _
  have nearSize : (0 : ℚ) ≤ nearestUnits numerator denominator := Nat.cast_nonneg _
  have quotientSize : (0 : ℚ) ≤ (numerator : ℚ) / denominator :=
    div_nonneg (Nat.cast_nonneg _) (Nat.cast_nonneg _)
  cases negative with
  | false =>
    refine ⟨?_, nofun⟩
    cases valueNegative with
    | false => exact Nat.cast_le.mpr (le_nearestUnits_of_le positive reached)
    | true =>
      simp only [signed] at reached ⊢
      linarith
  | true =>
    have above : (numerator : ℚ) / denominator ≤ magnitude.units := by
      cases valueNegative <;> simp only [signed] at reached <;> linarith
    have near := nearestUnits_le_of_le positive above
    have nearRat : (nearestUnits numerator denominator : ℚ) ≤ magnitude.units :=
      Nat.cast_le.mpr near
    refine ⟨?_, fun _ => near⟩
    cases valueNegative <;> simp only [signed] at reached ⊢ <;> linarith

theorem nearestUnits_le_signed (positive : 0 < denominator) {negative valueNegative : Bool}
    (above : signed negative (numerator / denominator) ≤ signed valueNegative magnitude.units) :
    signed negative (nearestUnits numerator denominator) ≤ signed valueNegative magnitude.units ∧
      (negative = false → nearestUnits numerator denominator ≤ magnitude.units) := by
  have mirrored : signed (!valueNegative) magnitude.units ≤
      signed (!negative) (numerator / denominator) := by
    rw [signed_not, signed_not]
    exact neg_le_neg above
  obtain ⟨reached, finite⟩ := signed_le_nearestUnits positive mirrored
  rw [signed_not, signed_not] at reached
  refine ⟨neg_le_neg_iff.mp reached, ?_⟩
  rintro rfl
  exact finite rfl

theorem abs_nearestUnits_sub_le (positive : 0 < denominator)
    (filled : 2 ^ 52 ≤ (numerator : ℚ) / denominator) :
    |(nearestUnits numerator denominator : ℚ) - numerator / denominator| ≤
      (numerator : ℚ) / denominator / 2 ^ 53 := by
  have parts : (0 : ℚ) < denominator := Nat.cast_pos.mpr positive
  rw [le_div_iff₀ parts] at filled
  norm_cast at filled
  have near := gap_nearestUnits_le positive ((Nat.le_div_iff_mul_le positive).mpr filled)
  have size : (gap numerator denominator (nearestUnits numerator denominator) : ℚ) =
      |(numerator : ℚ) - nearestUnits numerator denominator * denominator| := by
    rw [gap, Nat.cast_natAbs, Int.cast_abs]
    push_cast
    rfl
  have nearRat : (2 : ℚ) ^ 53 *
      |(numerator : ℚ) - nearestUnits numerator denominator * denominator| ≤ numerator := by
    rw [← size]
    exact_mod_cast near
  have apart : (nearestUnits numerator denominator : ℚ) - numerator / denominator =
      -((numerator : ℚ) - nearestUnits numerator denominator * denominator) / denominator := by
    field_simp
    ring
  rw [apart, abs_div, abs_neg, abs_of_pos parts, div_right_comm,
    div_le_div_iff_of_pos_right parts, le_div_iff₀ (by positivity), mul_comm]
  exact nearRat

end Sides

theorem value?_round_cases (negative : Bool) (numerator denominator : Nat) :
    (nearestUnits numerator denominator < unitsCeiling ∧
        (Number.float (round negative numerator denominator)).value? =
          some (.ofRat (signed negative (nearestUnits numerator denominator) / unitsPerOne))) ∨
      (unitsCeiling ≤ nearestUnits numerator denominator ∧
        (Number.float (round negative numerator denominator)).value? =
          some (if negative then ⊥ else ⊤)) := by
  by_cases below : nearestUnits numerator denominator < unitsCeiling
  · exact .inl ⟨below, by rw [round_eq_finite negative below, value?_finite]⟩
  · have beyond := Nat.not_lt.mp below
    exact .inr ⟨beyond, by rw [round_eq_infinite negative beyond]; rfl⟩

namespace Approximates

variable {exact value : ℚ} {near : Binary64} {place : ExtendedRat}

theorem exists_place (approximates : Approximates exact near) :
    ∃ place, (Number.float near).value? = some place := by
  obtain ⟨negative, numerator, denominator, -, isRound, -⟩ := approximates
  rw [isRound]
  rcases value?_round_cases negative numerator denominator with ⟨-, found⟩ | ⟨-, found⟩
  · exact ⟨_, found⟩
  · exact ⟨_, found⟩

/-- A value that the exact result reaches is reached by the rounded one. -/
theorem le_value (approximates : Approximates exact near) (isValue : IsValue value)
    (reached : value ≤ exact) (isPlace : (Number.float near).value? = some place) :
    .ofRat value ≤ place := by
  obtain ⟨negative, numerator, denominator, positive, isRound, isExact⟩ := approximates
  obtain ⟨valueNegative, magnitude, isUnits⟩ := isValue.exists_magnitude
  rw [isExact, isUnits, div_le_div_iff_of_pos_right Number.unitsPerOne_pos_rat] at reached
  obtain ⟨nearReached, finite⟩ := signed_le_nearestUnits positive reached
  rw [isRound] at isPlace
  rcases value?_round_cases negative numerator denominator with ⟨-, found⟩ | ⟨beyond, found⟩
  · obtain rfl := Option.some.inj (isPlace.symm.trans found)
    rw [isUnits, ExtendedRat.ofRat_le_iff, div_le_div_iff_of_pos_right Number.unitsPerOne_pos_rat]
    exact nearReached
  · obtain rfl := Option.some.inj (isPlace.symm.trans found)
    cases negative with
    | false => exact le_top
    | true =>
      have below := magnitude.representable.1
      have small := finite rfl
      omega

/-- A value that the exact result does not exceed is not exceeded by the rounded one. -/
theorem value_le (approximates : Approximates exact near) (isValue : IsValue value)
    (above : exact ≤ value) (isPlace : (Number.float near).value? = some place) :
    place ≤ .ofRat value := by
  obtain ⟨negative, numerator, denominator, positive, isRound, isExact⟩ := approximates
  obtain ⟨valueNegative, magnitude, isUnits⟩ := isValue.exists_magnitude
  rw [isExact, isUnits, div_le_div_iff_of_pos_right Number.unitsPerOne_pos_rat] at above
  obtain ⟨nearAbove, finite⟩ := nearestUnits_le_signed positive above
  rw [isRound] at isPlace
  rcases value?_round_cases negative numerator denominator with ⟨-, found⟩ | ⟨beyond, found⟩
  · obtain rfl := Option.some.inj (isPlace.symm.trans found)
    rw [isUnits, ExtendedRat.ofRat_le_iff, div_le_div_iff_of_pos_right Number.unitsPerOne_pos_rat]
    exact nearAbove
  · obtain rfl := Option.some.inj (isPlace.symm.trans found)
    cases negative with
    | false =>
      have below := magnitude.representable.1
      have small := finite rfl
      omega
    | true => exact bot_le

/-- What is a binary64 value already is not changed. -/
theorem value_eq (approximates : Approximates exact near) (isValue : IsValue exact) :
    (Number.float near).value? = some (.ofRat exact) := by
  obtain ⟨place, isPlace⟩ := approximates.exists_place
  rw [isPlace, le_antisymm (approximates.value_le isValue le_rfl isPlace)
    (approximates.le_value isValue le_rfl isPlace)]

theorem exists_value (approximates : Approximates exact near)
    (inside : |exact| < roundingCeiling) :
    ∃ value, (Number.float near).value? = some (.ofRat value) := by
  obtain ⟨negative, numerator, denominator, positive, isRound, isExact⟩ := approximates
  rw [isRound]
  rcases value?_round_cases negative numerator denominator with ⟨-, found⟩ | ⟨beyond, -⟩
  · exact ⟨_, found⟩
  · rw [isExact, abs_signed_div, div_lt_iff₀ Number.unitsPerOne_pos_rat,
      div_lt_iff₀ (Nat.cast_pos.mpr positive), ← Nat.cast_mul, ← Nat.cast_mul,
      Nat.cast_lt] at inside
    have below := (nearestUnits_lt_unitsCeiling_iff positive).mpr inside
    omega

/-- A rounded result with all its digits differs from the exact one by at most the `2 ^ 53`rd
part of it. -/
theorem abs_sub_le (approximates : Approximates exact near) (normal : leastNormal ≤ |exact|)
    (isValue : (Number.float near).value? = some (.ofRat value)) :
    |value - exact| ≤ |exact| / 2 ^ 53 := by
  obtain ⟨negative, numerator, denominator, positive, isRound, isExact⟩ := approximates
  have unit := Number.unitsPerOne_pos_rat
  have units : value = signed negative (nearestUnits numerator denominator) / unitsPerOne := by
    rw [isRound] at isValue
    rcases value?_round_cases negative numerator denominator with ⟨-, found⟩ | ⟨-, found⟩
    · exact ExtendedRat.ofRat_inj.mp (Option.some.inj (isValue.symm.trans found))
    · have infinite := Option.some.inj (isValue.symm.trans found)
      cases negative with
      | false => exact absurd infinite (ExtendedRat.ofRat_ne_top value)
      | true => exact absurd infinite (ExtendedRat.ofRat_ne_bot value)
  rw [isExact, abs_signed_div, leastNormal, div_le_div_iff_of_pos_right unit] at normal
  have near := abs_nearestUnits_sub_le positive normal
  calc |value - exact|
      = |(nearestUnits numerator denominator : ℚ) - numerator / denominator| / unitsPerOne := by
        rw [units, isExact, ← sub_div, signed_sub, abs_div, abs_signed, abs_of_pos unit]
    _ ≤ numerator / denominator / 2 ^ 53 / unitsPerOne :=
        (div_le_div_iff_of_pos_right unit).mpr near
    _ = |exact| / 2 ^ 53 := by rw [isExact, abs_signed_div, div_right_comm]

end Approximates

/-! ## Operations -/

section Operations

variable {left right : Binary64} {leftValue rightValue : ℚ}

theorem approximates_ofInt (whole : Int) : Approximates whole (ofInt whole) := by
  refine ⟨decide (whole < 0), whole.natAbs * unitsPerOne, 1, Nat.one_pos, by rw [ofInt], ?_⟩
  rw [Nat.cast_one, div_one, Nat.cast_mul, ← signed_mul, signed_natAbs,
    mul_div_cancel_right₀ _ Number.unitsPerOne_pos_rat.ne']

theorem approximates_ofQuotient (dividend : Int) {divisor : Int} (nonzero : divisor ≠ 0) :
    Approximates ((dividend : ℚ) / divisor) (ofQuotient dividend divisor) := by
  refine ⟨decide (dividend < 0) != decide (divisor < 0), dividend.natAbs * unitsPerOne,
    divisor.natAbs, Int.natAbs_pos.mpr nonzero, by rw [ofQuotient], ?_⟩
  rw [Nat.cast_mul, mul_div_right_comm, ← signed_mul, ← signed_div_signed, signed_natAbs,
    signed_natAbs, mul_div_cancel_right₀ _ Number.unitsPerOne_pos_rat.ne']

variable (isLeft : (Number.float left).value? = some (.ofRat leftValue))
  (isRight : (Number.float right).value? = some (.ofRat rightValue))

include isLeft isRight

theorem approximates_add : Approximates (leftValue + rightValue) (add left right) := by
  obtain ⟨leftNegative, leftSize, rfl, rfl⟩ := exists_finite isLeft
  obtain ⟨rightNegative, rightSize, rfl, rfl⟩ := exists_finite isRight
  rw [← signedUnits_cast, ← signedUnits_cast, ← add_div, ← Int.cast_add]
  refine ⟨_, _, 1, Nat.one_pos, by rw [add], ?_⟩
  rw [Nat.cast_one, div_one]
  split
  · next zero => rw [zero, Int.cast_zero, Int.natAbs_zero, Nat.cast_zero, signed_zero]
  · rw [signed_natAbs]

theorem approximates_mul : Approximates (leftValue * rightValue) (mul left right) := by
  obtain ⟨leftNegative, leftSize, rfl, rfl⟩ := exists_finite isLeft
  obtain ⟨rightNegative, rightSize, rfl, rfl⟩ := exists_finite isRight
  refine ⟨leftNegative != rightNegative, leftSize.units * rightSize.units, unitsPerOne,
    unitsPerOne_pos, by rw [mul], ?_⟩
  rw [div_mul_div_comm, signed_mul_signed, Nat.cast_mul, ← signed_div, div_div]

end Operations

end Binary64

end Progressions
