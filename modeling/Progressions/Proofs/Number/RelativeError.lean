import Progressions.Proofs.Number.Approximation

/-!
# Relative errors

A number of rounded operations in a row leaves a value `Close` to the exact one: every operation
adds one more factor of `1 + 2 ^ -53` to what the sizes may differ by.
-/

set_option autoImplicit false

namespace Progressions

namespace Binary64

/-- What a number of rounded operations may make a size grow by, as a factor. -/
def growth (roundings : Nat) : ℚ := (1 + 1 / 2 ^ 53) ^ roundings

theorem growth_add (first second : Nat) : growth (first + second) = growth first * growth second :=
  pow_add _ first second

theorem one_le_growth (roundings : Nat) : 1 ≤ growth roundings :=
  one_le_pow₀ (by norm_num)

/-- The value is what a number of rounded operations may leave of the exact one. -/
def Close (roundings : Nat) (exact value : ℚ) : Prop :=
  |value - exact| ≤ (growth roundings - 1) * |exact|

namespace Close

variable {first second : Nat} {exact other value near : ℚ}

theorem abs_le (close : Close first exact value) : |value| ≤ growth first * |exact| := by
  have difference := abs_sub_abs_le_abs_sub value exact
  unfold Close at close
  linarith

theorem le_abs (close : Close first exact value) : (2 - growth first) * |exact| ≤ |value| := by
  have difference := abs_sub_abs_le_abs_sub exact value
  rw [abs_sub_comm] at difference
  unfold Close at close
  linarith

theorem trans (close : Close first exact value) (closeNear : Close second value near) :
    Close (first + second) exact near := by
  have size := close.abs_le
  have larger : 0 ≤ growth second - 1 := sub_nonneg.mpr (one_le_growth second)
  calc |near - exact|
      ≤ |near - value| + |value - exact| := abs_sub_le near value exact
    _ ≤ (growth second - 1) * |value| + (growth first - 1) * |exact| := add_le_add closeNear close
    _ ≤ (growth second - 1) * (growth first * |exact|) + (growth first - 1) * |exact| :=
        add_le_add (mul_le_mul_of_nonneg_left size larger) le_rfl
    _ = (growth (first + second) - 1) * |exact| := by rw [growth_add]; ring

theorem mul (close : Close first exact value) (closeOther : Close second other near) :
    Close (first + second) (exact * other) (value * near) := by
  have size := close.abs_le
  have larger : 0 ≤ (growth second - 1) * |other| :=
    mul_nonneg (sub_nonneg.mpr (one_le_growth second)) (abs_nonneg other)
  calc |value * near - exact * other|
      = |value * (near - other) + (value - exact) * other| := by congr 1; ring
    _ ≤ |value * (near - other)| + |(value - exact) * other| := abs_add_le _ _
    _ = |value| * |near - other| + |value - exact| * |other| := by rw [abs_mul, abs_mul]
    _ ≤ growth first * |exact| * ((growth second - 1) * |other|) +
          (growth first - 1) * |exact| * |other| :=
        add_le_add (mul_le_mul size closeOther (abs_nonneg _) (le_trans (abs_nonneg _) size))
          (mul_le_mul_of_nonneg_right close (abs_nonneg other))
    _ = (growth (first + second) - 1) * |exact * other| := by
        rw [growth_add, abs_mul]
        ring

/-- Three operations make less than the `2 ^ 51`st part of a difference. -/
theorem abs_sub_le_of_three (close : Close 3 exact value) : |value - exact| ≤ |exact| / 2 ^ 51 := by
  have small : growth 3 - 1 ≤ 1 / 2 ^ 51 := by norm_num [growth]
  calc |value - exact| ≤ (growth 3 - 1) * |exact| := close
    _ ≤ 1 / 2 ^ 51 * |exact| := mul_le_mul_of_nonneg_right small (abs_nonneg exact)
    _ = |exact| / 2 ^ 51 := by ring

end Close

/-! ## Values with all their digits -/

/-- The reciprocal of the least positive value with all significant digits. -/
def normalCeiling : Nat := Nat.pow 2 1022

theorem leastNormal_mul_normalCeiling : leastNormal * normalCeiling = 1 := by
  have unit : unitsPerOne = 2 ^ 52 * normalCeiling := by decide +kernel
  have positive : (normalCeiling : ℚ) ≠ 0 := Nat.cast_ne_zero.mpr (by decide +kernel)
  rw [leastNormal, unit, Nat.cast_mul, Nat.cast_pow, Nat.cast_ofNat, div_mul_eq_mul_div,
    mul_div_mul_right _ _ positive, div_self (by norm_num)]

theorem leastNormal_le_half : leastNormal ≤ 1 / 2 := by
  have large : 2 ≤ normalCeiling := by decide +kernel
  have positive : 0 ≤ leastNormal := div_nonneg (by norm_num) (Nat.cast_nonneg _)
  have scaled := mul_le_mul_of_nonneg_left (Nat.ofNat_le_cast.mpr large) positive
  rw [leastNormal_mul_normalCeiling] at scaled
  linarith

theorem normalCeiling_le_roundingCeiling : (2 : ℚ) * normalCeiling ≤ roundingCeiling := by
  have inside : normalCeiling + normalCeiling ≤ roundingCeiling := by decide +kernel
  rw [two_mul, ← Nat.cast_add]
  exact Nat.cast_le.mpr inside

/-- A rounded result with all its digits is one operation away from the exact one. -/
theorem Approximates.close {exact value : ℚ} {near : Binary64}
    (approximates : Approximates exact near) (normal : leastNormal ≤ |exact|)
    (isValue : (Number.float near).value? = some (.ofRat value)) : Close 1 exact value := by
  have apart := approximates.abs_sub_le normal isValue
  have one : growth 1 - 1 = 1 / 2 ^ 53 := by norm_num [growth]
  calc |value - exact| ≤ |exact| / 2 ^ 53 := apart
    _ = (growth 1 - 1) * |exact| := by rw [one]; ring

end Binary64

end Progressions
