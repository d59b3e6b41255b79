import Mathlib.Tactic.Ring
import Mathlib.Tactic.NormNum
import Progressions.Number.Binary64

/-!
# The range of rounding

A quotient of units rounds to a finite number exactly below `halfBeyond`, half a step beyond the
greatest finite number: there the even neighbour is the ceiling itself.  For integers, and for
quotients of integers, the same limit counted in ones is `roundingCeiling`.
-/

set_option autoImplicit false

namespace Progressions

/-- The least natural number whose nearest binary64 number is infinite. -/
def roundingCeiling : Nat := (Nat.pow 2 54 - 1) * Nat.pow 2 970

/-! ## The nearest whole number -/

section NearestWhole

variable {numerator denominator : Nat}

theorem le_nearestWhole (numerator denominator : Nat) :
    numerator / denominator ≤ nearestWhole numerator denominator := by
  unfold nearestWhole
  dsimp only
  split <;> omega

/-- A quotient rounds below an even bound exactly when it is more than a half below it. -/
theorem nearestWhole_lt_iff {bound : Nat} (positive : 0 < denominator) (even : bound % 2 = 0) :
    nearestWhole numerator denominator < bound ↔
      2 * numerator < (2 * bound - 1) * denominator := by
  have whole := Nat.div_add_mod numerator denominator
  have remainder := Nat.mod_lt numerator positive
  have lower := le_nearestWhole numerator denominator
  have upper := nearestWhole_le numerator denominator
  have limit : (2 * bound - 1) * denominator = 2 * (denominator * bound) - denominator := by
    rw [Nat.sub_mul, Nat.one_mul]
    congr 1
    ring
  rcases Nat.lt_trichotomy (numerator / denominator + 1) bound with below | here | beyond
  · have room := Nat.mul_le_mul_left denominator (show numerator / denominator + 2 ≤ bound by omega)
    rw [Nat.mul_add] at room
    omega
  · have next : denominator * bound = denominator * (numerator / denominator) + denominator := by
      rw [← here, Nat.mul_add, Nat.mul_one]
    unfold nearestWhole
    dsimp only
    split <;> omega
  · have room := Nat.mul_le_mul_left denominator (show bound ≤ numerator / denominator by omega)
    omega

end NearestWhole

/-! ## The nearest representable count of units -/

section NearestUnits

variable {numerator denominator : Nat}

theorem two_pow_le_of_bitLength {count : Nat} (positive : 0 < bitLength count) :
    2 ^ (bitLength count - 1) ≤ count := by
  unfold bitLength at positive ⊢
  split at positive
  · contradiction
  · next nonzero =>
    rw [if_neg nonzero, Nat.add_sub_cancel]
    exact Nat.log2_self_le nonzero

theorem nearestUnits_le (numerator denominator : Nat) :
    nearestUnits numerator denominator ≤
      2 ^ (significantDigits + (bitLength (numerator / denominator) - significantDigits)) := by
  have small := div_spacing_lt (numerator / denominator)
  rw [Nat.div_div_eq_div_mul] at small
  have close := nearestWhole_le numerator (denominator * spacing (numerator / denominator))
  rw [Nat.pow_add]
  exact Nat.mul_le_mul_right _ (Nat.le_trans close small)

theorem le_nearestUnits (numerator denominator : Nat) :
    numerator / denominator / spacing (numerator / denominator) *
        spacing (numerator / denominator) ≤ nearestUnits numerator denominator := by
  unfold nearestUnits
  dsimp only
  rw [Nat.div_div_eq_div_mul]
  exact Nat.mul_le_mul_right _ (le_nearestWhole _ _)

/-- The spacing around a positive count divides the power of two below it. -/
theorem two_pow_le_nearestUnits (positive : 0 < bitLength (numerator / denominator)) :
    2 ^ (bitLength (numerator / denominator) - 1) ≤ nearestUnits numerator denominator := by
  have lower := two_pow_le_of_bitLength positive
  refine Nat.le_trans ?_ (le_nearestUnits numerator denominator)
  generalize bitLength_eq : bitLength (numerator / denominator) = length at *
  have divides : spacing (numerator / denominator) ∣ 2 ^ (length - 1) := by
    rw [spacing, bitLength_eq]
    refine Nat.pow_dvd_pow 2 ?_
    unfold significantDigits
    omega
  rw [← Nat.div_mul_cancel divides]
  exact Nat.mul_le_mul_right _ (Nat.div_le_div_right lower)

theorem nearestUnits_lt_of_short {exponent : Nat}
    (short : bitLength (numerator / denominator) < 54 + exponent) :
    nearestUnits numerator denominator < 2 ^ (54 + exponent) := by
  refine Nat.lt_of_le_of_lt (nearestUnits_le numerator denominator) ?_
  refine Nat.pow_lt_pow_right (by decide) ?_
  unfold significantDigits
  omega

theorem lt_of_short {exponent : Nat} (positive : 0 < denominator)
    (short : bitLength (numerator / denominator) < 54 + exponent) :
    numerator < (2 ^ 54 - 1) * 2 ^ exponent * denominator := by
  have inside := lt_two_pow_bitLength (numerator / denominator)
  have room : 2 ^ bitLength (numerator / denominator) ≤ (2 ^ 54 - 1) * 2 ^ exponent := by
    calc 2 ^ bitLength (numerator / denominator)
        ≤ 2 ^ (53 + exponent) := Nat.pow_le_pow_right (by decide) (by omega)
      _ = 2 ^ 53 * 2 ^ exponent := Nat.pow_add 2 53 exponent
      _ ≤ (2 ^ 54 - 1) * 2 ^ exponent := Nat.mul_le_mul_right _ (by norm_num)
  exact (Nat.div_lt_iff_lt_mul positive).mp (Nat.lt_of_lt_of_le inside room)

theorem le_of_long {exponent : Nat} (long : 54 + exponent < bitLength (numerator / denominator)) :
    2 ^ (54 + exponent) ≤ numerator / denominator :=
  Nat.le_trans (Nat.pow_le_pow_right (by decide) (by omega)) (two_pow_le_of_bitLength (by omega))

theorem nearestUnits_lt_iff_of_same {exponent : Nat} (positive : 0 < denominator)
    (same : bitLength (numerator / denominator) = 54 + exponent) :
    nearestUnits numerator denominator < 2 ^ (54 + exponent) ↔
      numerator < (2 ^ 54 - 1) * 2 ^ exponent * denominator := by
  -- In this binade the power is reached exactly when the count of steps is rounded up to it.
  have step : spacing (numerator / denominator) = 2 ^ (exponent + 1) := by
    rw [spacing, same, significantDigits, show 54 + exponent - 53 = exponent + 1 by omega]
    rfl
  have power : 2 ^ (54 + exponent) = 2 ^ 53 * 2 ^ (exponent + 1) := by
    rw [← Nat.pow_add, show 54 + exponent = 53 + (exponent + 1) by omega]
  have spaced : 0 < 2 ^ (exponent + 1) := Nat.pow_pos (by decide)
  have unfolded : nearestUnits numerator denominator =
      nearestWhole numerator (denominator * 2 ^ (exponent + 1)) * 2 ^ (exponent + 1) := by
    rw [← step]
    rfl
  have steps : nearestUnits numerator denominator < 2 ^ (54 + exponent) ↔
      nearestWhole numerator (denominator * 2 ^ (exponent + 1)) < 2 ^ 53 := by
    rw [unfolded, power]
    exact Nat.mul_lt_mul_right spaced
  have halves : nearestWhole numerator (denominator * 2 ^ (exponent + 1)) < 2 ^ 53 ↔
      2 * numerator < (2 * 2 ^ 53 - 1) * (denominator * 2 ^ (exponent + 1)) :=
    nearestWhole_lt_iff (Nat.mul_pos positive spaced) (by norm_num)
  have limit : (2 * 2 ^ 53 - 1) * (denominator * 2 ^ (exponent + 1)) =
      2 * ((2 ^ 54 - 1) * 2 ^ exponent * denominator) := by
    rw [show 2 * 2 ^ 53 = 2 ^ 54 by norm_num, Nat.pow_succ]
    ring
  rw [steps, halves, limit]
  exact Nat.mul_lt_mul_left (by decide)

/-- Rounding reaches a power of two from half a step below it on. -/
theorem nearestUnits_lt_iff (positive : 0 < denominator) (exponent : Nat) :
    nearestUnits numerator denominator < 2 ^ (54 + exponent) ↔
      numerator < (2 ^ 54 - 1) * 2 ^ exponent * denominator := by
  rcases Nat.lt_trichotomy (bitLength (numerator / denominator)) (54 + exponent) with
    short | same | long
  · exact iff_of_true (nearestUnits_lt_of_short short) (lt_of_short positive short)
  · exact nearestUnits_lt_iff_of_same positive same
  · have reached := le_of_long long
    refine iff_of_false (Nat.not_lt.mpr ?_) (Nat.not_lt.mpr ?_)
    · refine Nat.le_trans ?_ (two_pow_le_nearestUnits (by omega))
      exact Nat.pow_le_pow_right (by decide) (by omega)
    · have below : (2 ^ 54 - 1) * 2 ^ exponent ≤ numerator / denominator := by
        refine Nat.le_trans (Nat.mul_le_mul_right _ (Nat.sub_le (2 ^ 54) 1)) ?_
        rw [← Nat.pow_add]
        exact reached
      exact Nat.le_trans (Nat.mul_le_mul_right denominator below)
        (Nat.div_mul_le_self numerator denominator)

theorem nearestUnits_pos (positive : 0 < denominator) (atLeastOne : denominator ≤ numerator) :
    0 < nearestUnits numerator denominator := by
  have nonzero : numerator / denominator ≠ 0 :=
    Nat.pos_iff_ne_zero.mp (Nat.div_pos atLeastOne positive)
  have digits : 0 < bitLength (numerator / denominator) := by
    rw [bitLength, if_neg nonzero]
    exact Nat.succ_pos _
  exact Nat.lt_of_lt_of_le (Nat.pow_pos (by decide)) (two_pow_le_nearestUnits digits)

theorem unitsCeiling_eq : unitsCeiling = 2 ^ (54 + 2044) := by decide +kernel

theorem roundingCeiling_mul_unitsPerOne :
    roundingCeiling * unitsPerOne = (2 ^ 54 - 1) * 2 ^ 2044 := by decide +kernel

theorem unitsPerOne_pos : 0 < unitsPerOne := by decide +kernel

/-- The limit of rounding for a quotient counted in ones. -/
theorem nearestUnits_ones_lt_iff (positive : 0 < denominator) :
    nearestUnits (numerator * unitsPerOne) denominator < unitsCeiling ↔
      numerator < roundingCeiling * denominator := by
  rw [unitsCeiling_eq, nearestUnits_lt_iff positive, ← roundingCeiling_mul_unitsPerOne,
    Nat.mul_right_comm]
  exact Nat.mul_lt_mul_right unitsPerOne_pos

end NearestUnits

/-! ## Rounded integers and quotients of integers -/

namespace Binary64

theorem round_eq_finite {numerator denominator : Nat} (negative : Bool)
    (below : nearestUnits numerator denominator < unitsCeiling) :
    round negative numerator denominator =
      .finite negative ⟨nearestUnits numerator denominator, below,
        nearestUnits_significant numerator denominator⟩ :=
  dif_pos below

theorem round_eq_infinite {numerator denominator : Nat} (negative : Bool)
    (beyond : unitsCeiling ≤ nearestUnits numerator denominator) :
    round negative numerator denominator = .infinite negative :=
  dif_neg (Nat.not_lt.mpr beyond)

theorem ofInt_eq_finite {value : Int} (below : value.natAbs < roundingCeiling) :
    ∃ magnitude : Magnitude, ofInt value = .finite (decide (value < 0)) magnitude ∧
      (value ≠ 0 → magnitude.units ≠ 0) := by
  rw [← Nat.mul_one roundingCeiling, ← nearestUnits_ones_lt_iff (by decide)] at below
  refine ⟨_, round_eq_finite _ below, ?_⟩
  intro nonzero
  have atLeastOne : 1 ≤ value.natAbs * unitsPerOne :=
    Nat.mul_pos (Int.natAbs_pos.mpr nonzero) unitsPerOne_pos
  exact Nat.pos_iff_ne_zero.mp (nearestUnits_pos (by decide) atLeastOne)

theorem ofInt_eq_infinite {value : Int} (beyond : roundingCeiling ≤ value.natAbs) :
    ofInt value = .infinite (decide (value < 0)) := by
  refine round_eq_infinite _ (Nat.not_lt.mp ?_)
  rw [nearestUnits_ones_lt_iff (by decide), Nat.mul_one]
  exact Nat.not_lt.mpr beyond

theorem ofQuotient_eq_finite {dividend divisor : Int} (nonzero : divisor ≠ 0)
    (below : dividend.natAbs < roundingCeiling * divisor.natAbs) :
    ∃ negative magnitude, ofQuotient dividend divisor = .finite negative magnitude :=
  ⟨_, _, round_eq_finite _ ((nearestUnits_ones_lt_iff (Int.natAbs_pos.mpr nonzero)).mpr below)⟩

theorem ofQuotient_eq_infinite {dividend divisor : Int} (nonzero : divisor ≠ 0)
    (beyond : roundingCeiling * divisor.natAbs ≤ dividend.natAbs) :
    ∃ negative, ofQuotient dividend divisor = .infinite negative := by
  refine ⟨_, round_eq_infinite _ (Nat.not_lt.mp ?_)⟩
  rw [nearestUnits_ones_lt_iff (Int.natAbs_pos.mpr nonzero)]
  exact Nat.not_lt.mpr beyond

end Binary64

end Progressions
