import Mathlib.Algebra.Order.Field.Basic
import Mathlib.Algebra.Order.Field.Rat
import Mathlib.Tactic.Linarith
import Mathlib.Tactic.Ring
import Progressions.Proofs.Number.Range

/-!
# Correct rounding

Rounding takes a quotient to the magnitude that no other magnitude is nearer to, and of two that
are equally near to the one whose last significant digit is zero.  So it depends on the quotient
alone, and it changes the quotient by so little that different quotients of short integers are
rounded to different magnitudes (`nearestUnits_quotient_eq_iff`).
-/

set_option autoImplicit false

namespace Progressions

/-- How far a count is from a quotient, in parts of the denominator. -/
def gap (numerator denominator count : Nat) : Nat :=
  ((numerator : Int) - (count * denominator : Nat)).natAbs

theorem gap_mul (numerator denominator count step : Nat) :
    gap numerator (denominator * step) count = gap numerator denominator (count * step) := by
  rw [gap, gap, Nat.mul_comm denominator, Nat.mul_assoc]

theorem gap_lt_gap_of_le {numerator denominator count other : Nat} (positive : 0 < denominator)
    (below : other < count) (reached : count ≤ numerator / denominator) :
    gap numerator denominator count < gap numerator denominator other := by
  have inside := (Nat.le_div_iff_mul_le positive).mp reached
  have apart := Nat.mul_lt_mul_of_pos_right below positive
  unfold gap
  omega

/-- Two counts cannot both be nearer to a quotient than half the way between neighbours. -/
theorem denominator_le_gap_add_gap (numerator denominator : Nat) {count other : Nat}
    (different : count ≠ other) :
    denominator ≤ gap numerator denominator count + gap numerator denominator other := by
  unfold gap
  rcases Nat.lt_or_gt_of_ne different with below | above
  · have room := Nat.mul_le_mul_right denominator (Nat.succ_le_of_lt below)
    rw [Nat.succ_mul] at room
    omega
  · have room := Nat.mul_le_mul_right denominator (Nat.succ_le_of_lt above)
    rw [Nat.succ_mul] at room
    omega

/-! ## The nearest whole number -/

section NearestWhole

variable (numerator : Nat) {denominator : Nat}

theorem gap_nearestWhole (positive : 0 < denominator) :
    2 * gap numerator denominator (nearestWhole numerator denominator) < denominator ∨
      (2 * gap numerator denominator (nearestWhole numerator denominator) = denominator ∧
        nearestWhole numerator denominator % 2 = 0) := by
  have whole := Nat.div_add_mod numerator denominator
  have remainder := Nat.mod_lt numerator positive
  have next : (numerator / denominator + 1) * denominator =
      numerator / denominator * denominator + denominator := Nat.succ_mul _ _
  rw [Nat.mul_comm] at whole
  unfold gap nearestWhole
  dsimp only
  split <;> omega

theorem two_mul_gap_nearestWhole_le (positive : 0 < denominator) :
    2 * gap numerator denominator (nearestWhole numerator denominator) ≤ denominator := by
  rcases gap_nearestWhole numerator positive with near | ⟨tie, -⟩
  · exact Nat.le_of_lt near
  · exact Nat.le_of_eq tie

theorem nearestWhole_closest (positive : 0 < denominator) (other : Nat) :
    gap numerator denominator (nearestWhole numerator denominator) ≤
      gap numerator denominator other := by
  by_cases same : nearestWhole numerator denominator = other
  · rw [same]
  · have half := two_mul_gap_nearestWhole_le numerator positive
    have apart := denominator_le_gap_add_gap numerator denominator same
    omega

theorem nearestWhole_even_of_tie (positive : 0 < denominator) {other : Nat}
    (different : nearestWhole numerator denominator ≠ other)
    (tie : gap numerator denominator (nearestWhole numerator denominator) =
      gap numerator denominator other) :
    nearestWhole numerator denominator % 2 = 0 := by
  have apart := denominator_le_gap_add_gap numerator denominator different
  rcases gap_nearestWhole numerator positive with near | ⟨-, even⟩
  · omega
  · exact even

end NearestWhole

/-! ## The nearest magnitude -/

/-- The count has no more significant binary digits than a magnitude may have. -/
def Significant (units : Nat) : Prop :=
  ∃ significand exponent, significand < significandCeiling ∧
    units = significand * Nat.pow 2 exponent

theorem spacing_pos (units : Nat) : 0 < spacing units := Nat.pow_pos (by decide)

theorem two_pow_mul_spacing {count : Nat} (long : significantDigits ≤ bitLength count) :
    2 ^ 52 * spacing count = 2 ^ (bitLength count - 1) := by
  rw [spacing]
  refine (Nat.pow_add 2 52 _).symm.trans (congrArg (2 ^ ·) ?_)
  rw [significantDigits] at long ⊢
  omega

theorem two_pow_mul_spacing_le {count : Nat} (long : significantDigits ≤ bitLength count) :
    2 ^ 52 * spacing count ≤ count := by
  rw [two_pow_mul_spacing long]
  refine two_pow_le_of_bitLength (Nat.lt_of_lt_of_le ?_ long)
  decide

/-- A significant count lies on the grid that a quotient is rounded to, or below the power of two
that the quotient reaches. -/
theorem Significant.on_grid_or_below {units : Nat} (significant : Significant units) (count : Nat) :
    spacing count ∣ units ∨
      (units < 2 ^ 52 * spacing count ∧ 2 ^ 52 * spacing count ≤ count) := by
  obtain ⟨significand, exponent, small, rfl⟩ := significant
  by_cases coarse : bitLength count - significantDigits ≤ exponent
  · exact .inl (Nat.dvd_trans (Nat.pow_dvd_pow 2 coarse) (Nat.dvd_mul_left _ _))
  · have long : significantDigits + (exponent + 1) ≤ bitLength count := by omega
    have full : significantDigits ≤ bitLength count := by omega
    refine .inr ⟨?_, two_pow_mul_spacing_le full⟩
    rw [two_pow_mul_spacing full]
    calc significand * 2 ^ exponent
        < 2 ^ significantDigits * 2 ^ exponent :=
          Nat.mul_lt_mul_of_pos_right small (Nat.pow_pos (by decide))
      _ = 2 ^ (significantDigits + exponent) := (Nat.pow_add 2 _ _).symm
      _ ≤ 2 ^ (bitLength count - 1) := Nat.pow_le_pow_right (by decide) (by omega)

section NearestUnits

variable {numerator denominator units : Nat}

theorem gap_nearestUnits (numerator denominator : Nat) :
    gap numerator denominator (nearestUnits numerator denominator) =
      gap numerator (denominator * spacing (numerator / denominator))
        (nearestWhole numerator (denominator * spacing (numerator / denominator))) :=
  (gap_mul _ _ _ _).symm

/-- No count with few enough significant digits is nearer to a quotient than the rounded one; one
that is as near lies on the same grid. -/
theorem nearestUnits_closest (positive : 0 < denominator) (significant : Significant units) :
    gap numerator denominator (nearestUnits numerator denominator) ≤
        gap numerator denominator units ∧
      (gap numerator denominator (nearestUnits numerator denominator) =
          gap numerator denominator units → spacing (numerator / denominator) ∣ units) := by
  have spaced : 0 < denominator * spacing (numerator / denominator) :=
    Nat.mul_pos positive (spacing_pos _)
  have onGrid (steps : Nat) : gap numerator denominator (nearestUnits numerator denominator) ≤
      gap numerator denominator (steps * spacing (numerator / denominator)) := by
    rw [gap_nearestUnits, ← gap_mul]
    exact nearestWhole_closest numerator spaced steps
  rcases significant.on_grid_or_below (numerator / denominator) with divides | ⟨below, reached⟩
  · obtain ⟨steps, rfl⟩ := divides
    rw [Nat.mul_comm]
    exact ⟨onGrid steps, fun _ => Nat.dvd_mul_left _ _⟩
  · -- The power of two is on the grid itself, and nearer than every count below it.
    have farther := gap_lt_gap_of_le positive below reached
    have near := onGrid (2 ^ 52)
    exact ⟨by omega, fun tie => by omega⟩

/-- The last significant digit of a count is zero. -/
def EndsEven (units : Nat) : Prop := 2 * spacing units ∣ units

theorem spacing_dvd_of_lt {units exponent : Nat}
    (small : units < significandCeiling * Nat.pow 2 exponent) :
    spacing units ∣ Nat.pow 2 exponent := by
  refine Nat.pow_dvd_pow 2 ?_
  have short : bitLength units ≤ significantDigits + exponent := by
    refine bitLength_le_of_lt (Nat.lt_of_lt_of_le small (Nat.le_of_eq ?_))
    exact (Nat.pow_add 2 _ _).symm
  omega

theorem endsEven_of_even_steps {steps exponent : Nat} (even : steps % 2 = 0)
    (short : steps ≤ significandCeiling) : EndsEven (steps * Nat.pow 2 exponent) := by
  rcases Nat.lt_or_eq_of_le short with below | carried
  · have inside : steps * Nat.pow 2 exponent < significandCeiling * Nat.pow 2 exponent :=
      Nat.mul_lt_mul_of_pos_right below (Nat.pow_pos (by decide))
    refine Nat.dvd_trans (Nat.mul_dvd_mul_left 2 (spacing_dvd_of_lt inside)) ?_
    exact Nat.mul_dvd_mul_right (Nat.dvd_of_mod_eq_zero even) _
  · have inside : steps * Nat.pow 2 exponent < significandCeiling * Nat.pow 2 (exponent + 1) := by
      rw [carried]
      refine Nat.mul_lt_mul_of_pos_left ?_ (by decide)
      exact Nat.pow_lt_pow_right (by decide) (Nat.lt_succ_self _)
    refine Nat.dvd_trans (Nat.mul_dvd_mul_left 2 (spacing_dvd_of_lt inside)) ?_
    have doubled : 2 * Nat.pow 2 (exponent + 1) = 4 * Nat.pow 2 exponent := by
      change 2 * 2 ^ (exponent + 1) = 4 * 2 ^ exponent
      ring
    rw [doubled, carried]
    exact Nat.mul_dvd_mul_right (by decide) _

theorem nearestUnits_even_of_tie (positive : 0 < denominator) (significant : Significant units)
    (different : nearestUnits numerator denominator ≠ units)
    (tie : gap numerator denominator (nearestUnits numerator denominator) =
      gap numerator denominator units) :
    EndsEven (nearestUnits numerator denominator) := by
  obtain ⟨steps, rfl⟩ := (nearestUnits_closest positive significant).2 tie
  have spaced : 0 < denominator * spacing (numerator / denominator) :=
    Nat.mul_pos positive (spacing_pos _)
  have short := div_spacing_lt (numerator / denominator)
  rw [Nat.div_div_eq_div_mul] at short
  have close := nearestWhole_le numerator (denominator * spacing (numerator / denominator))
  rw [gap_nearestUnits, Nat.mul_comm (spacing _), ← gap_mul] at tie
  have otherSteps : nearestWhole numerator (denominator * spacing (numerator / denominator)) ≠
      steps := by
    rintro rfl
    exact different (Nat.mul_comm _ _)
  exact endsEven_of_even_steps (nearestWhole_even_of_tie numerator spaced otherSteps tie) (by omega)

/-! ## Quotients that are equal, and quotients that differ -/

theorem nearestWhole_scale (numerator denominator : Nat) {scale : Nat} (positive : 0 < scale) :
    nearestWhole (numerator * scale) (denominator * scale) =
      nearestWhole numerator denominator := by
  have regrouped : 2 * (numerator % denominator * scale) = 2 * (numerator % denominator) * scale :=
    (Nat.mul_assoc _ _ _).symm
  simp only [nearestWhole, Nat.mul_div_mul_right _ _ positive, Nat.mul_mod_mul_right, regrouped,
    Nat.mul_lt_mul_right positive, Nat.mul_left_inj (Nat.ne_of_gt positive)]

theorem nearestUnits_scale (numerator denominator : Nat) {scale : Nat} (positive : 0 < scale) :
    nearestUnits (numerator * scale) (denominator * scale) =
      nearestUnits numerator denominator := by
  unfold nearestUnits
  dsimp only
  rw [Nat.mul_div_mul_right _ _ positive, Nat.mul_right_comm denominator,
    nearestWhole_scale _ _ positive]

theorem nearestUnits_congr {otherNumerator otherDenominator : Nat} (positive : 0 < denominator)
    (otherPositive : 0 < otherDenominator)
    (same : numerator * otherDenominator = otherNumerator * denominator) :
    nearestUnits numerator denominator = nearestUnits otherNumerator otherDenominator := by
  calc nearestUnits numerator denominator
      = nearestUnits (numerator * otherDenominator) (denominator * otherDenominator) :=
        (nearestUnits_scale _ _ otherPositive).symm
    _ = nearestUnits (otherNumerator * denominator) (otherDenominator * denominator) := by
        rw [same, Nat.mul_comm denominator]
    _ = nearestUnits otherNumerator otherDenominator := nearestUnits_scale _ _ positive

theorem nearestUnits_zero (denominator : Nat) : nearestUnits 0 denominator = 0 := by
  simp [nearestUnits, nearestWhole]

/-- From `2 ^ 52` units on rounding changes a quotient by no more than its `2 ^ 53`rd part. -/
theorem gap_nearestUnits_le (positive : 0 < denominator)
    (normal : 2 ^ 52 ≤ numerator / denominator) :
    2 ^ 53 * gap numerator denominator (nearestUnits numerator denominator) ≤ numerator := by
  have spaced : 0 < denominator * spacing (numerator / denominator) :=
    Nat.mul_pos positive (spacing_pos _)
  have half := two_mul_gap_nearestWhole_le numerator spaced
  rw [← gap_nearestUnits] at half
  have long : significantDigits ≤ bitLength (numerator / denominator) := by
    have inside := Nat.lt_of_le_of_lt normal (lt_two_pow_bitLength (numerator / denominator))
    exact (Nat.pow_lt_pow_iff_right (by decide)).mp inside
  have fine := two_pow_mul_spacing_le long
  calc 2 ^ 53 * gap numerator denominator (nearestUnits numerator denominator)
      = 2 ^ 52 * (2 * gap numerator denominator (nearestUnits numerator denominator)) := by ring
    _ ≤ 2 ^ 52 * (denominator * spacing (numerator / denominator)) := Nat.mul_le_mul_left _ half
    _ = 2 ^ 52 * spacing (numerator / denominator) * denominator := by ring
    _ ≤ numerator / denominator * denominator := Nat.mul_le_mul_right _ fine
    _ ≤ numerator := Nat.div_mul_le_self _ _

/-- Two quotients that are rounded alike are too close to each other to be different fractions with
short terms. -/
theorem eq_of_nearestUnits_eq {unit left right first second : Nat}
    (leftPositive : 0 < left) (rightPositive : 0 < right)
    (leftNormal : 2 ^ 52 ≤ first * unit / left) (rightNormal : 2 ^ 52 ≤ second * unit / right)
    (short : first * right + second * left < 2 ^ 53)
    (same : nearestUnits (first * unit) left = nearestUnits (second * unit) right) :
    first * right = second * left := by
  have leftNear := gap_nearestUnits_le leftPositive leftNormal
  have rightNear := gap_nearestUnits_le rightPositive rightNormal
  rw [← same] at rightNear
  generalize nearestUnits (first * unit) left = units at leftNear rightNear
  have unitPositive : 0 < unit := by
    refine Nat.pos_of_ne_zero ?_
    rintro rfl
    simp at leftNormal
  have apart : (unit : Int) * ((first * right : Nat) - (second * left : Nat)) =
      right * ((first * unit : Nat) - (units * left : Nat)) -
        left * ((second * unit : Nat) - (units * right : Nat)) := by
    push_cast
    ring
  have close : 2 ^ 53 * (unit * ((first * right : Nat) - (second * left : Nat) : Int).natAbs) <
      2 ^ 53 * (unit * 1) := by
    calc 2 ^ 53 * (unit * ((first * right : Nat) - (second * left : Nat) : Int).natAbs)
        = 2 ^ 53 * ((unit : Int) * ((first * right : Nat) - (second * left : Nat))).natAbs := by
          rw [Int.natAbs_mul, Int.natAbs_natCast]
      _ ≤ 2 ^ 53 *
            (right * gap (first * unit) left units + left * gap (second * unit) right units) := by
          rw [apart]
          refine Nat.mul_le_mul_left _ (Nat.le_trans (Int.natAbs_sub_le _ _) (Nat.le_of_eq ?_))
          rw [Int.natAbs_mul, Int.natAbs_mul, Int.natAbs_natCast, Int.natAbs_natCast, gap, gap]
      _ = right * (2 ^ 53 * gap (first * unit) left units) +
          left * (2 ^ 53 * gap (second * unit) right units) := by ring
      _ ≤ right * (first * unit) + left * (second * unit) :=
          Nat.add_le_add (Nat.mul_le_mul_left _ leftNear) (Nat.mul_le_mul_left _ rightNear)
      _ = (first * right + second * left) * unit := by ring
      _ < 2 ^ 53 * unit := Nat.mul_lt_mul_of_pos_right short unitPositive
      _ = 2 ^ 53 * (unit * 1) := by ring
  have none := Nat.lt_of_mul_lt_mul_left (Nat.lt_of_mul_lt_mul_left close)
  omega

theorem nearestUnits_ones_eq_zero_iff (positive : 0 < denominator)
    (short : denominator ≤ unitsPerOne) :
    nearestUnits (numerator * unitsPerOne) denominator = 0 ↔ numerator = 0 := by
  constructor
  · intro zero
    refine Nat.eq_zero_of_not_pos fun nonzero => ?_
    have atLeastOne : denominator ≤ numerator * unitsPerOne :=
      Nat.le_trans short (Nat.le_mul_of_pos_left _ nonzero)
    have units := nearestUnits_pos positive atLeastOne
    omega
  · rintro rfl
    rw [Nat.zero_mul, nearestUnits_zero]

theorem short_le_unitsPerOne : 2 ^ 52 * 2 ^ 26 ≤ unitsPerOne := by decide +kernel

theorem quotient_normal (nonzero : numerator ≠ 0) (positive : 0 < denominator)
    (short : denominator < 2 ^ 26) : 2 ^ 52 ≤ numerator * unitsPerOne / denominator := by
  refine (Nat.le_div_iff_mul_le positive).mpr ?_
  calc 2 ^ 52 * denominator
      ≤ 2 ^ 52 * 2 ^ 26 := Nat.mul_le_mul_left _ (Nat.le_of_lt short)
    _ ≤ unitsPerOne := short_le_unitsPerOne
    _ ≤ numerator * unitsPerOne := Nat.le_mul_of_pos_left _ (Nat.pos_of_ne_zero nonzero)

/-- Rounding neither merges two different quotients of short integers nor splits equal ones. -/
theorem nearestUnits_quotient_eq_iff {first left second right : Nat}
    (leftPositive : 0 < left) (rightPositive : 0 < right)
    (firstShort : first < 2 ^ 26) (leftShort : left < 2 ^ 26)
    (secondShort : second < 2 ^ 26) (rightShort : right < 2 ^ 26) :
    nearestUnits (first * unitsPerOne) left = nearestUnits (second * unitsPerOne) right ↔
      first * right = second * left := by
  have units := short_le_unitsPerOne
  constructor
  · intro same
    have zeroTogether : first = 0 ↔ second = 0 := by
      rw [← nearestUnits_ones_eq_zero_iff leftPositive (by omega), same,
        nearestUnits_ones_eq_zero_iff rightPositive (by omega)]
    by_cases zero : first = 0
    · rw [zero, zeroTogether.mp zero, Nat.zero_mul, Nat.zero_mul]
    · have firstTerm : first * right < 2 ^ 26 * 2 ^ 26 := Nat.mul_lt_mul'' firstShort rightShort
      have secondTerm : second * left < 2 ^ 26 * 2 ^ 26 := Nat.mul_lt_mul'' secondShort leftShort
      exact eq_of_nearestUnits_eq leftPositive rightPositive
        (quotient_normal zero leftPositive leftShort)
        (quotient_normal (mt zeroTogether.mpr zero) rightPositive rightShort) (by omega) same
  · intro same
    refine nearestUnits_congr leftPositive rightPositive ?_
    rw [Nat.mul_right_comm, same, Nat.mul_right_comm]

end NearestUnits

/-! ## Rounded quotients -/

def Magnitude.value (magnitude : Magnitude) : ℚ := (magnitude.units : ℚ) / (unitsPerOne : ℚ)

/-- The magnitude is the quotient rounded correctly: no other is nearer, and where another is as
near, this one ends with zero. -/
structure Magnitude.Nearest (quotient : ℚ) (magnitude : Magnitude) : Prop where
  closest : ∀ other : Magnitude, |quotient - magnitude.value| ≤ |quotient - other.value|
  even_of_tie : ∀ other : Magnitude, other ≠ magnitude →
    |quotient - magnitude.value| = |quotient - other.value| → EndsEven magnitude.units

/-- The number is finite, has the sign of the quotient and its correctly rounded size. -/
def Binary64.Rounds (quotient : ℚ) (near : Binary64) : Prop :=
  ∃ negative magnitude, near = .finite negative magnitude ∧
    (negative = true ↔ quotient < 0) ∧ magnitude.Nearest |quotient|

theorem Magnitude.eq_of_units_eq {left right : Magnitude} (same : left.units = right.units) :
    left = right := by
  cases left
  cases right
  cases same
  rfl

theorem spacing_dvd_spacing {units other : Nat} (smaller : units ≤ other) :
    spacing units ∣ spacing other := by
  have shorter : bitLength units ≤ bitLength other :=
    bitLength_le_of_lt (Nat.lt_of_le_of_lt smaller (lt_two_pow_bitLength other))
  exact Nat.pow_dvd_pow 2 (Nat.sub_le_sub_right shorter _)

theorem exists_magnitude_between {left right : Magnitude} (smaller : left.units < right.units)
    (leftEven : EndsEven left.units) (rightEven : EndsEven right.units) :
    ∃ middle : Magnitude, left.units < middle.units ∧ middle.units < right.units := by
  have spaced := spacing_pos left.units
  have grid : 2 * spacing left.units ∣ right.units :=
    Nat.dvd_trans (Nat.mul_dvd_mul_left 2 (spacing_dvd_spacing (Nat.le_of_lt smaller))) rightEven
  have apart : 2 * spacing left.units ≤ right.units - left.units :=
    Nat.le_of_dvd (by omega) (Nat.dvd_sub grid leftEven)
  have inside : left.units + spacing left.units < unitsCeiling := by
    have below := right.representable.1
    omega
  have significant : Significant (left.units + spacing left.units) := by
    obtain ⟨half, steps⟩ := leftEven
    have short := div_spacing_lt left.units
    have exactSteps : left.units / spacing left.units = 2 * half := by
      refine Nat.div_eq_of_eq_mul_right spaced (steps.trans ?_)
      ring
    have even : significandCeiling % 2 = 0 := by decide
    refine ⟨2 * half + 1, bitLength left.units - significantDigits, by omega, ?_⟩
    change _ = (2 * half + 1) * spacing left.units
    rw [← exactSteps, Nat.succ_mul,
      Nat.div_mul_cancel (spacing_dvd_of_representable left.representable)]
  refine ⟨⟨left.units + spacing left.units, inside, significant⟩, ?_, ?_⟩
  · exact Nat.lt_add_of_pos_right spaced
  · change left.units + spacing left.units < right.units
    omega

theorem Magnitude.value_lt_value {left right : Magnitude} :
    left.value < right.value ↔ left.units < right.units := by
  rw [value, value, div_lt_div_iff_of_pos_right (Nat.cast_pos.mpr unitsPerOne_pos), Nat.cast_lt]

namespace Magnitude.Nearest

variable {quotient : ℚ} {left right : Magnitude}

theorem not_lt (leftNearest : left.Nearest quotient) (rightNearest : right.Nearest quotient) :
    ¬ left.units < right.units := by
  intro smaller
  have different : left ≠ right := by
    rintro rfl
    exact Nat.lt_irrefl _ smaller
  have tie := le_antisymm (leftNearest.closest right) (rightNearest.closest left)
  -- Both end with zero, so a third magnitude lies between them and nearer to the quotient.
  obtain ⟨middle, leftMiddle, middleRight⟩ := exists_magnitude_between smaller
    (leftNearest.even_of_tie right different.symm tie)
    (rightNearest.even_of_tie left different tie.symm)
  have noNearer := leftNearest.closest middle
  rw [← value_lt_value] at leftMiddle middleRight
  have halfway : quotient - left.value = right.value - quotient := by
    rcases abs_eq_abs.mp tie with same | opposite
    · linarith
    · rw [opposite, neg_sub]
  have nearer : |quotient - middle.value| < |quotient - left.value| := by
    rw [abs_of_pos (by linarith : 0 < quotient - left.value)]
    exact abs_lt.mpr ⟨by linarith, by linarith⟩
  exact not_lt_of_ge noNearer nearer

theorem unique (leftNearest : left.Nearest quotient) (rightNearest : right.Nearest quotient) :
    left = right := by
  have same : left.units = right.units := by
    have notLess := not_lt leftNearest rightNearest
    have notGreater := not_lt rightNearest leftNearest
    omega
  exact eq_of_units_eq same

end Magnitude.Nearest

theorem Binary64.Rounds.unique {quotient : ℚ} {near other : Binary64}
    (rounds : near.Rounds quotient) (otherRounds : other.Rounds quotient) : near = other := by
  obtain ⟨negative, magnitude, rfl, sign, nearest⟩ := rounds
  obtain ⟨otherNegative, otherMagnitude, rfl, otherSign, otherNearest⟩ := otherRounds
  have sameSign : negative = otherNegative := Bool.eq_iff_iff.mpr (sign.trans otherSign.symm)
  rw [sameSign, nearest.unique otherNearest]

theorem abs_sub_value {numerator denominator : Nat} (positive : 0 < denominator)
    (magnitude : Magnitude) :
    |(numerator : ℚ) / denominator - magnitude.value| =
      gap (numerator * unitsPerOne) denominator magnitude.units /
        (denominator * unitsPerOne : Nat) := by
  have denominatorNonzero : (denominator : ℚ) ≠ 0 := Nat.cast_ne_zero.mpr (Nat.ne_of_gt positive)
  have unitNonzero : (unitsPerOne : ℚ) ≠ 0 :=
    Nat.cast_ne_zero.mpr (Nat.ne_of_gt unitsPerOne_pos)
  have parts : (0 : ℚ) ≤ denominator * unitsPerOne :=
    mul_nonneg (Nat.cast_nonneg denominator) (Nat.cast_nonneg unitsPerOne)
  rw [Magnitude.value, div_sub_div _ _ denominatorNonzero unitNonzero, abs_div, abs_of_nonneg parts,
    gap, Nat.cast_natAbs]
  push_cast
  rw [mul_comm (denominator : ℚ) (magnitude.units : ℚ)]

theorem nearest_of_units {numerator denominator : Nat} (positive : 0 < denominator)
    {magnitude : Magnitude}
    (rounded : magnitude.units = nearestUnits (numerator * unitsPerOne) denominator) :
    magnitude.Nearest ((numerator : ℚ) / denominator) := by
  have parts : (0 : ℚ) < (denominator * unitsPerOne : Nat) :=
    Nat.cast_pos.mpr (Nat.mul_pos positive unitsPerOne_pos)
  refine ⟨?_, ?_⟩
  · intro other
    rw [abs_sub_value positive, abs_sub_value positive, div_le_div_iff_of_pos_right parts,
      Nat.cast_le, rounded]
    exact (nearestUnits_closest positive other.representable.2).1
  · intro other different tie
    rw [abs_sub_value positive, abs_sub_value positive, div_left_inj' parts.ne', Nat.cast_inj,
      rounded] at tie
    rw [rounded]
    refine nearestUnits_even_of_tie positive other.representable.2 ?_ tie
    exact fun same => different (Magnitude.eq_of_units_eq (same.symm.trans rounded.symm))

namespace Binary64

variable {dividend divisor : Int}

theorem ofQuotient_eq_units (divisorNonzero : divisor ≠ 0)
    (below : dividend.natAbs < roundingCeiling * divisor.natAbs) :
    ∃ magnitude : Magnitude,
      ofQuotient dividend divisor =
        .finite (decide (dividend < 0) != decide (divisor < 0)) magnitude ∧
      magnitude.units = nearestUnits (dividend.natAbs * unitsPerOne) divisor.natAbs := by
  have inside := (nearestUnits_ones_lt_iff (Int.natAbs_pos.mpr divisorNonzero)).mpr below
  have representable :
      Representable (nearestUnits (dividend.natAbs * unitsPerOne) divisor.natAbs) :=
    ⟨inside, nearestUnits_significant _ _⟩
  exact ⟨⟨_, representable⟩, round_eq_finite _ inside, rfl⟩

theorem sign_ofQuotient (dividendNonzero : dividend ≠ 0) (divisorNonzero : divisor ≠ 0) :
    (decide (dividend < 0) != decide (divisor < 0)) = true ↔ (dividend : ℚ) / divisor < 0 := by
  rw [div_neg_iff, Int.cast_pos, Int.cast_pos, Int.cast_lt_zero, Int.cast_lt_zero]
  simp only [bne_iff_ne, ne_eq, decide_eq_decide]
  omega

theorem abs_quotient (dividend divisor : Int) :
    |(dividend : ℚ) / divisor| = (dividend.natAbs : ℚ) / divisor.natAbs := by
  rw [abs_div, ← Int.cast_abs, ← Int.cast_abs, ← Nat.cast_natAbs, ← Nat.cast_natAbs]

theorem ofQuotient_rounds (dividendNonzero : dividend ≠ 0) (divisorNonzero : divisor ≠ 0)
    (below : dividend.natAbs < roundingCeiling * divisor.natAbs) :
    (ofQuotient dividend divisor).Rounds ((dividend : ℚ) / divisor) := by
  obtain ⟨magnitude, isFinite, units⟩ := ofQuotient_eq_units divisorNonzero below
  have nearest := nearest_of_units (Int.natAbs_pos.mpr divisorNonzero) units
  rw [← abs_quotient] at nearest
  exact ⟨_, magnitude, isFinite, sign_ofQuotient dividendNonzero divisorNonzero, nearest⟩

end Binary64

end Progressions
