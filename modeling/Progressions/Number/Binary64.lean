/-!
# Binary floating point

A `Binary64` is not-a-number, a signed infinity, or a signed magnitude.  A
magnitude is a whole count of *units*, one unit being the smallest positive
number `2⁻¹⁰⁷⁴`, with at most 53 significant binary digits.

Every operation that can lose digits goes through `Binary64.round`, which takes
an exact quotient of units to the nearest magnitude, a half going to the even
neighbour, and to infinity from `unitsCeiling` on.  Nothing here depends on the
machine's floating point.

`nearestUnits_significant` says that rounding leaves few enough digits, and
`nearestUnits_mul_of_representable` that it changes no representable quotient.
-/

set_option autoImplicit false

namespace Progressions

/-- Units in one: the smallest positive number is `1 / unitsPerOne`. -/
def unitsPerOne : Nat := Nat.pow 2 1074

/-- Units in the first power of two beyond the finite numbers. -/
def unitsCeiling : Nat := Nat.pow 2 2098

def significantDigits : Nat := 53

def significandCeiling : Nat := Nat.pow 2 significantDigits

/-- No more binary digits of the count are significant than may be, and it is below the
ceiling. -/
def Representable (units : Nat) : Prop :=
  units < unitsCeiling ∧
    ∃ significand exponent,
      significand < significandCeiling ∧ units = significand * Nat.pow 2 exponent

structure Magnitude where
  units : Nat
  representable : Representable units
deriving DecidableEq

inductive Binary64 where
  | nan
  | infinite (negative : Bool)
  | finite (negative : Bool) (magnitude : Magnitude)
deriving DecidableEq

/-! ## Rounding -/

/-- How many binary digits a count has; zero has none. -/
def bitLength (count : Nat) : Nat := if count = 0 then 0 else count.log2 + 1

theorem lt_two_pow_bitLength (count : Nat) : count < Nat.pow 2 (bitLength count) := by
  unfold bitLength
  split
  · next zero => simp [zero]
  · exact Nat.lt_log2_self

/-- The distance between neighbouring magnitudes around a count of units. -/
def spacing (units : Nat) : Nat := Nat.pow 2 (bitLength units - significantDigits)

theorem div_spacing_lt (units : Nat) : units / spacing units < significandCeiling := by
  unfold spacing significandCeiling
  refine Nat.div_lt_of_lt_mul ?_
  refine Nat.lt_of_lt_of_le (lt_two_pow_bitLength units) ?_
  refine Nat.le_trans (Nat.pow_le_pow_right (by decide) ?_) (Nat.le_of_eq (Nat.pow_add 2 _ _))
  omega

/-- The whole number nearest to a quotient, a half going to the even neighbour. -/
def nearestWhole (numerator denominator : Nat) : Nat :=
  let quotient := numerator / denominator
  let remainder := numerator % denominator
  if denominator < 2 * remainder ∨ (2 * remainder = denominator ∧ quotient % 2 = 1) then
    quotient + 1
  else
    quotient

theorem nearestWhole_le (numerator denominator : Nat) :
    nearestWhole numerator denominator ≤ numerator / denominator + 1 := by
  unfold nearestWhole
  dsimp only
  split <;> omega

/-- The count of units nearest to `numerator / denominator` among those with 53 significant
digits, whatever their size. -/
def nearestUnits (numerator denominator : Nat) : Nat :=
  let step := spacing (numerator / denominator)
  nearestWhole numerator (denominator * step) * step

theorem nearestUnits_significant (numerator denominator : Nat) :
    ∃ significand exponent, significand < significandCeiling ∧
      nearestUnits numerator denominator = significand * Nat.pow 2 exponent := by
  have small := div_spacing_lt (numerator / denominator)
  rw [Nat.div_div_eq_div_mul] at small
  have close := nearestWhole_le numerator (denominator * spacing (numerator / denominator))
  by_cases fits :
      nearestWhole numerator (denominator * spacing (numerator / denominator)) < significandCeiling
  · exact ⟨_, bitLength (numerator / denominator) - significantDigits, fits, rfl⟩
  · refine ⟨1, significantDigits + (bitLength (numerator / denominator) - significantDigits),
      by decide, ?_⟩
    have carried : nearestWhole numerator (denominator * spacing (numerator / denominator)) =
        significandCeiling := by
      omega
    unfold nearestUnits
    dsimp only
    rw [carried, Nat.one_mul]
    exact (Nat.pow_add 2 _ _).symm

theorem bitLength_le_of_lt {count digits : Nat} (below : count < Nat.pow 2 digits) :
    bitLength count ≤ digits := by
  unfold bitLength
  split
  · exact Nat.zero_le _
  · next positive => exact (Nat.log2_lt positive).mpr below

theorem nearestWhole_mul (whole : Nat) {denominator : Nat} (positive : 0 < denominator) :
    nearestWhole (whole * denominator) denominator = whole := by
  unfold nearestWhole
  dsimp only
  rw [Nat.mul_div_cancel _ positive, Nat.mul_mod_left]
  split
  · omega
  · rfl

theorem spacing_dvd_of_representable {units : Nat} (representable : Representable units) :
    spacing units ∣ units := by
  obtain ⟨_, significand, exponent, small, rfl⟩ := representable
  have short : bitLength (significand * Nat.pow 2 exponent) ≤ significantDigits + exponent := by
    refine bitLength_le_of_lt (Nat.lt_of_lt_of_le ?_ (Nat.le_of_eq (Nat.pow_add 2 _ _).symm))
    exact Nat.mul_lt_mul_of_pos_right small (Nat.pow_pos (by decide))
  refine Nat.dvd_trans (Nat.pow_dvd_pow 2 ?_) (Nat.dvd_mul_left _ _)
  omega

/-- What is representable is not changed by rounding. -/
theorem nearestUnits_mul_of_representable {units denominator : Nat}
    (representable : Representable units) (positive : 0 < denominator) :
    nearestUnits (units * denominator) denominator = units := by
  obtain ⟨whole, factored⟩ := spacing_dvd_of_representable representable
  unfold nearestUnits
  dsimp only
  rw [Nat.mul_div_cancel _ positive]
  have spaced : 0 < spacing units := Nat.pow_pos (by decide)
  have regrouped : units * denominator = whole * (denominator * spacing units) := by
    conv => lhs; rw [factored]
    rw [Nat.mul_comm (spacing units) whole, Nat.mul_assoc, Nat.mul_comm (spacing units)]
  rw [regrouped, nearestWhole_mul whole (Nat.mul_pos positive spaced), Nat.mul_comm]
  exact factored.symm

namespace Binary64

/-- The number nearest to `numerator / denominator` units, with the given sign. -/
def round (negative : Bool) (numerator denominator : Nat) : Binary64 :=
  if below : nearestUnits numerator denominator < unitsCeiling then
    .finite negative
      ⟨nearestUnits numerator denominator, below, nearestUnits_significant numerator denominator⟩
  else
    .infinite negative

/-- The nearest number to an integer; infinite when the integer is too large. -/
def ofInt (value : Int) : Binary64 :=
  round (decide (value < 0)) (value.natAbs * unitsPerOne) 1

/-- The nearest number to a quotient of integers.  The sign is that of the operands also
where the quotient rounds to zero. -/
def ofQuotient (dividend divisor : Int) : Binary64 :=
  round (decide (dividend < 0) != decide (divisor < 0))
    (dividend.natAbs * unitsPerOne) divisor.natAbs

def ofDecimal (negative : Bool) (coefficient : Nat) (exponent : Int) : Binary64 :=
  match exponent with
  | .ofNat power => round negative (coefficient * Nat.pow 10 power * unitsPerOne) 1
  | .negSucc power => round negative (coefficient * unitsPerOne) (Nat.pow 10 (power + 1))

def isFinite : Binary64 → Bool
  | .finite _ _ => true
  | _ => false

def isZero : Binary64 → Bool
  | .finite _ magnitude => magnitude.units == 0
  | _ => false

/-! ## Arithmetic -/

def signedUnits (negative : Bool) (magnitude : Magnitude) : Int :=
  if negative then -(magnitude.units : Int) else magnitude.units

def neg : Binary64 → Binary64
  | .nan => .nan
  | .infinite negative => .infinite (!negative)
  | .finite negative magnitude => .finite (!negative) magnitude

/-- The rounded sum.  An exact zero is negative only as the sum of two negative zeros. -/
def add : Binary64 → Binary64 → Binary64
  | .nan, _ => .nan
  | _, .nan => .nan
  | .infinite left, .infinite right => if left = right then .infinite left else .nan
  | .infinite negative, .finite _ _ => .infinite negative
  | .finite _ _, .infinite negative => .infinite negative
  | .finite leftNegative left, .finite rightNegative right =>
    let total := signedUnits leftNegative left + signedUnits rightNegative right
    round (if total = 0 then leftNegative && rightNegative else decide (total < 0)) total.natAbs 1

def sub (left right : Binary64) : Binary64 := add left (neg right)

def mul : Binary64 → Binary64 → Binary64
  | .nan, _ => .nan
  | _, .nan => .nan
  | .infinite left, .infinite right => .infinite (left != right)
  | .infinite left, .finite right magnitude =>
    if magnitude.units = 0 then .nan else .infinite (left != right)
  | .finite left magnitude, .infinite right =>
    if magnitude.units = 0 then .nan else .infinite (left != right)
  | .finite leftNegative left, .finite rightNegative right =>
    round (leftNegative != rightNegative) (left.units * right.units) unitsPerOne

/-- The rounded quotient; a non-zero number over zero is infinite. -/
def div : Binary64 → Binary64 → Binary64
  | .nan, _ => .nan
  | _, .nan => .nan
  | .infinite _, .infinite _ => .nan
  | .infinite left, .finite right _ => .infinite (left != right)
  | .finite left _, .infinite right => round (left != right) 0 1
  | .finite leftNegative left, .finite rightNegative right =>
    if right.units = 0 then
      if left.units = 0 then .nan else .infinite (leftNegative != rightNegative)
    else
      round (leftNegative != rightNegative) (left.units * unitsPerOne) right.units

/-- The integer a finite number without a fraction stands for. -/
def toInt? : Binary64 → Option Int
  | .finite negative magnitude =>
    if magnitude.units % unitsPerOne = 0 then
      let whole := magnitude.units / unitsPerOne
      some (if negative then -(whole : Int) else whole)
    else
      none
  | _ => none

end Binary64

end Progressions
