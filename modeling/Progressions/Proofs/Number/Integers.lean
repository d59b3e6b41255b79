import Progressions.Proofs.Number.Approximation

/-!
# Integers among the binary64 numbers

Rounding depends on the exact quotient only, so a product of two integers that are binary64 numbers
is rounded as the integer that it is, and an integer divided by one of its divisors as the other
factor, whether or not these are binary64 numbers themselves.
-/

set_option autoImplicit false

namespace Progressions

namespace Binary64

variable {left right : Int}

theorem round_congr {numerator denominator otherNumerator otherDenominator : Nat} (negative : Bool)
    (positive : 0 < denominator) (otherPositive : 0 < otherDenominator)
    (same : numerator * otherDenominator = otherNumerator * denominator) :
    round negative numerator denominator = round negative otherNumerator otherDenominator := by
  have units := nearestUnits_congr positive otherPositive same
  rcases Nat.lt_or_ge (nearestUnits numerator denominator) unitsCeiling with below | beyond
  · have otherBelow := below
    rw [units] at otherBelow
    rw [round_eq_finite negative below, round_eq_finite negative otherBelow]
    exact congrArg _ (Magnitude.eq_of_units_eq units)
  · have otherBeyond := beyond
    rw [units] at otherBeyond
    rw [round_eq_infinite negative beyond, round_eq_infinite negative otherBeyond]

theorem ofInt_positive (positive : 0 < left) :
    ofInt left = round false (left.natAbs * unitsPerOne) 1 := by
  rw [ofInt, decide_eq_false (Int.not_lt.mpr (Int.le_of_lt positive))]

/-- An integer of at most 53 binary digits is as many ones. -/
theorem ofInt_short (positive : 0 < left) (short : left.natAbs ≤ 2 ^ 53) :
    ofInt left = .finite false ⟨left.natAbs * unitsPerOne, representable_ones short⟩ := by
  have unchanged := nearestUnits_mul_of_representable (representable_ones short) Nat.one_pos
  rw [Nat.mul_one] at unchanged
  have below : nearestUnits (left.natAbs * unitsPerOne) 1 < unitsCeiling := by
    rw [unchanged]
    exact (representable_ones short).1
  rw [ofInt_positive positive, round_eq_finite false below]
  exact congrArg _ (Magnitude.eq_of_units_eq unchanged)

theorem equals_ofInt_short (short : left.natAbs ≤ 2 ^ 53) :
    (Number.float (ofInt left)).equals (.int left) = true := by
  have exact := (approximates_ofInt left).value_eq (isValue_int short)
  exact (Number.equals_value_iff exact rfl).mpr rfl

theorem mul_ofInt (leftPositive : 0 < left) (rightPositive : 0 < right)
    (leftShort : left.natAbs ≤ 2 ^ 53) (rightShort : right.natAbs ≤ 2 ^ 53) :
    mul (ofInt left) (ofInt right) = ofInt (left * right) := by
  rw [ofInt_short leftPositive leftShort, ofInt_short rightPositive rightShort, mul,
    ofInt_positive (Int.mul_pos leftPositive rightPositive), bne_self_eq_false]
  apply round_congr false unitsPerOne_pos Nat.one_pos
  rw [Int.natAbs_mul]
  ring

theorem ofQuotient_mul (leftPositive : 0 < left) (rightPositive : 0 < right) :
    ofQuotient (left * right) left = ofInt right := by
  have product := Int.mul_pos leftPositive rightPositive
  rw [ofQuotient, ofInt_positive rightPositive,
    decide_eq_false (Int.not_lt.mpr (Int.le_of_lt product)),
    decide_eq_false (Int.not_lt.mpr (Int.le_of_lt leftPositive)), bne_self_eq_false]
  apply round_congr false (Int.natAbs_pos.mpr (Int.ne_of_gt leftPositive)) Nat.one_pos
  rw [Int.natAbs_mul]
  ring

end Binary64

end Progressions
