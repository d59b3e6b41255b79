import Progressions.Number.Text
import Progressions.Proofs.Number.Approximation
import Progressions.Proofs.Number.Printing

/-!
# Shortest digits read back

The search for the shortest digits stops at a neighbour of the magnitude that reads as the magnitude
(`neighbour_coarsestFrom`), and the zeros that are cut off its digits are made up for by the place
of the point.  So the digits with their point read as the magnitude, wherever the point is written.

A fraction that is not below one ten-thousandth is written without an exponent: the first digit of
the neighbour is not before that of the magnitude's own grid, and a neighbour of `10 ^ 16` and more
would read as a number without a fraction.
-/

set_option autoImplicit false

namespace Progressions

theorem decimalScale_pos : 0 < decimalScale := by decide +kernel

theorem ten_pow_decimalPlaces : 10 ^ decimalPlaces = unitsPerOne * decimalScale := by
  decide +kernel

namespace Magnitude

variable {magnitude : Magnitude}

/-! ## The search -/

/-- Steps on a grid that read as the magnitude, not in front of it by a whole step. -/
structure Neighbour (magnitude : Magnitude) (steps grid : Nat) : Prop where
  readsBack : magnitude.readsBack (steps * grid) = true
  reached : magnitude.coefficient / grid ≤ steps

theorem readsBack_iff {count : Nat} :
    magnitude.readsBack count = true ↔ nearestUnits count decimalScale = magnitude.units := by
  rw [Magnitude.readsBack, beq_iff_eq]

theorem readsBack_coefficient (magnitude : Magnitude) :
    magnitude.readsBack magnitude.coefficient = true := by
  rw [readsBack_iff, coefficient, Nat.mul_comm]
  exact nearestUnits_mul_of_representable magnitude.representable decimalScale_pos

theorem neighbour_of_onGrid? {grid steps : Nat} (found : magnitude.onGrid? grid = some steps) :
    magnitude.Neighbour steps grid := by
  rw [onGrid?] at found
  split at found
  · next onGrid =>
    obtain rfl := Option.some.inj found
    have whole : magnitude.coefficient / grid * grid = magnitude.coefficient :=
      Nat.div_mul_cancel (Nat.dvd_of_mod_eq_zero onGrid)
    refine ⟨?_, Nat.le_refl _⟩
    rw [whole]
    exact magnitude.readsBack_coefficient
  · cases low : magnitude.readsBack (magnitude.coefficient / grid * grid) <;>
      cases high : magnitude.readsBack ((magnitude.coefficient / grid + 1) * grid) <;>
      rw [low, high] at found
    case false.false => cases found
    case false.true =>
      obtain rfl := Option.some.inj found
      exact ⟨high, Nat.le_succ _⟩
    case true.false =>
      obtain rfl := Option.some.inj found
      exact ⟨low, Nat.le_refl _⟩
    case true.true =>
      dsimp only at found
      split at found
      · obtain rfl := Option.some.inj found
        exact ⟨low, Nat.le_refl _⟩
      · obtain rfl := Option.some.inj found
        exact ⟨high, Nat.le_succ _⟩

section Search

-- The search compares numbers of a thousand digits, which nothing here may unfold.
attribute [local irreducible] onGrid?

theorem coarsestFrom_zero (magnitude : Magnitude) :
    magnitude.coarsestFrom 0 = (magnitude.coefficient, 0) := rfl

theorem coarsestFrom_succ (magnitude : Magnitude) (power : Nat) :
    magnitude.coarsestFrom (power + 1) =
      match magnitude.onGrid? (Nat.pow 10 (power + 1)) with
      | some steps => (steps, power + 1)
      | none => magnitude.coarsestFrom power := rfl

end Search

/-- The search ends at a neighbour, on the finest grid at the magnitude itself. -/
theorem neighbour_coarsestFrom (magnitude : Magnitude) (power : Nat) :
    magnitude.Neighbour (magnitude.coarsestFrom power).1
      (10 ^ (magnitude.coarsestFrom power).2) := by
  induction power with
  | zero =>
    rw [coarsestFrom_zero]
    refine ⟨?_, Nat.div_le_self _ _⟩
    rw [Nat.pow_zero, Nat.mul_one]
    exact magnitude.readsBack_coefficient
  | succ power inductionHypothesis =>
    rw [coarsestFrom_succ]
    cases found : magnitude.onGrid? (Nat.pow 10 (power + 1)) with
    | some steps => exact neighbour_of_onGrid? found
    | none => exact inductionHypothesis

theorem Neighbour.steps_pos {steps grid : Nat} (neighbour : magnitude.Neighbour steps grid)
    (nonzero : magnitude.units ≠ 0) : 0 < steps := by
  refine Nat.pos_of_ne_zero fun zero => nonzero ?_
  have nearest := readsBack_iff.mp neighbour.readsBack
  rw [zero, Nat.zero_mul, nearestUnits_zero] at nearest
  exact nearest.symm

/-! ## The digits -/

theorem exists_zeros (digits : List Char) :
    ∃ zeros, digits = trimZeros digits ++ List.replicate zeros '0' := by
  have split := List.takeWhile_append_dropWhile (p := (· == '0')) (l := digits.reverse)
  have zeros : digits.reverse.takeWhile (· == '0') =
      List.replicate (digits.reverse.takeWhile (· == '0')).length '0' := by
    rw [List.eq_replicate_iff]
    exact ⟨rfl, fun character member => by simpa using List.mem_takeWhile_imp member⟩
  refine ⟨(digits.reverse.takeWhile (· == '0')).length, ?_⟩
  have reversed := congrArg List.reverse split
  rw [List.reverse_append, List.reverse_reverse, zeros, List.reverse_replicate] at reversed
  exact reversed.symm

end Magnitude

namespace DecimalDigits

def significand (number : DecimalDigits) : Nat := Nat.ofDigitChars 10 number.digits 0

end DecimalDigits

/-- The digits, with as many zeros behind them, count the steps of a number that reads as the
magnitude. -/
structure Magnitude.WrittenAs (magnitude : Magnitude) (number : DecimalDigits) (zeros : Nat) :
    Prop where
  nonempty : number.digits ≠ []
  digits : ∀ character ∈ number.digits, character.isDigit = true
  point : number.point + decimalPlaces = number.digits.length + zeros
  readsBack : magnitude.readsBack (number.significand * 10 ^ zeros) = true

namespace Magnitude

variable {magnitude : Magnitude}

theorem exists_shortest (nonzero : magnitude.units ≠ 0) :
    ∃ steps power : Nat, magnitude.Neighbour steps (10 ^ power) ∧
      magnitude.shortest = ⟨trimZeros (Nat.toDigits 10 steps),
        ((Nat.toDigits 10 steps).length + power : Int) - decimalPlaces⟩ := by
  have neighbour := magnitude.neighbour_coarsestFrom magnitude.leadingPower
  cases search : magnitude.coarsestFrom magnitude.leadingPower with
  | mk steps power =>
    rw [search] at neighbour
    refine ⟨steps, power, neighbour, ?_⟩
    rw [shortest, if_neg nonzero, search]

theorem exists_writtenAs (nonzero : magnitude.units ≠ 0) :
    ∃ zeros, magnitude.WrittenAs magnitude.shortest zeros := by
  obtain ⟨steps, power, neighbour, isShortest⟩ := exists_shortest nonzero
  obtain ⟨zeros, split⟩ := exists_zeros (Nat.toDigits 10 steps)
  have isSteps : steps = magnitude.shortest.significand * 10 ^ zeros := by
    have value := Nat.ofDigitChars_toDigits (n := steps) (by decide) (Nat.le_refl 10)
    rw [split, Nat.ofDigitChars_append, Nat.ofDigitChars_replicate_zero, Nat.mul_comm] at value
    rw [isShortest]
    exact value.symm
  refine ⟨zeros + power, ?_⟩
  constructor
  case nonempty =>
    intro empty
    have positive := neighbour.steps_pos nonzero
    rw [isSteps, DecimalDigits.significand, empty, Nat.ofDigitChars_nil, Nat.zero_mul] at positive
    exact absurd positive (Nat.lt_irrefl 0)
  case digits =>
    intro character member
    rw [isShortest] at member
    have listed : character ∈ Nat.toDigits 10 steps := by
      rw [split]
      exact List.mem_append_left _ member
    exact Nat.isDigit_of_mem_toDigits (by decide) (Nat.le_refl 10) listed
  case point =>
    have lengths := congrArg List.length split
    rw [List.length_append, List.length_replicate] at lengths
    rw [isShortest]
    dsimp only
    omega
  case readsBack =>
    have reads := neighbour.readsBack
    rw [isSteps, Nat.mul_assoc, ← Nat.pow_add] at reads
    exact reads

/-! ## The place of the point -/

theorem ten_pow_le_of_length {steps length : Nat} (positive : 0 < steps)
    (isLength : (Nat.toDigits 10 steps).length = length + 1) :
    10 ^ length ≤ steps ∧ steps < 10 ^ (length + 1) := by
  constructor
  · refine Nat.le_of_not_lt fun below => ?_
    cases length with
    | zero =>
      rw [Nat.pow_zero] at below
      omega
    | succ shorter =>
      have short := (Nat.length_toDigits_le_iff (by decide) (Nat.succ_pos shorter)).mpr below
      omega
  · exact (Nat.length_toDigits_le_iff (by decide) (Nat.succ_pos length)).mp (Nat.le_of_eq isLength)

/-- A number with the point of the shortest digits, and what reads as the magnitude inside it. -/
theorem exists_bounds (nonzero : magnitude.units ≠ 0) :
    ∃ steps power leading : Nat, magnitude.Neighbour steps (10 ^ power) ∧
      magnitude.shortest.point + decimalPlaces = leading + 1 ∧
      10 ^ leading ≤ steps * 10 ^ power ∧ steps * 10 ^ power < 10 ^ (leading + 1) := by
  obtain ⟨steps, power, neighbour, isShortest⟩ := exists_shortest nonzero
  have some : 0 < (Nat.toDigits 10 steps).length :=
    List.length_pos_iff.mpr Nat.toDigits_ne_nil
  obtain ⟨length, isLength⟩ := Nat.exists_eq_add_of_lt some
  rw [Nat.zero_add] at isLength
  obtain ⟨low, high⟩ := ten_pow_le_of_length (neighbour.steps_pos nonzero) isLength
  refine ⟨steps, power, length + power, neighbour, ?_, ?_, ?_⟩
  · rw [isShortest]
    dsimp only
    omega
  · rw [Nat.pow_add]
    exact Nat.mul_le_mul_right _ low
  · rw [Nat.add_right_comm, Nat.pow_add]
    exact Nat.mul_lt_mul_of_pos_right high (Nat.pow_pos (by decide))

theorem Neighbour.le_of_le {steps power least : Nat}
    (neighbour : magnitude.Neighbour steps (10 ^ power)) (nonzero : magnitude.units ≠ 0)
    (reached : 10 ^ least ≤ magnitude.coefficient) : 10 ^ least ≤ steps * 10 ^ power := by
  rcases Nat.le_total power least with finer | coarser
  · obtain ⟨further, rfl⟩ := Nat.exists_eq_add_of_le finer
    have quotient : 10 ^ further ≤ magnitude.coefficient / 10 ^ power := by
      rw [Nat.le_div_iff_mul_le (Nat.pow_pos (by decide)), ← Nat.pow_add, Nat.add_comm]
      exact reached
    rw [Nat.add_comm, Nat.pow_add]
    exact Nat.mul_le_mul_right _ (Nat.le_trans quotient neighbour.reached)
  · calc 10 ^ least ≤ 10 ^ power := Nat.pow_le_pow_right (by decide) coarser
      _ = 1 * 10 ^ power := (Nat.one_mul _).symm
      _ ≤ steps * 10 ^ power := Nat.mul_le_mul_right _ (neighbour.steps_pos nonzero)

/-- The magnitude is not below one ten-thousandth. -/
def Plain (magnitude : Magnitude) : Prop := unitsPerOne ≤ 10000 * magnitude.units

theorem Plain.nonzero (plain : magnitude.Plain) : magnitude.units ≠ 0 := by
  intro zero
  rw [Plain, zero, Nat.mul_zero] at plain
  exact absurd plain (Nat.not_le.mpr unitsPerOne_pos)

theorem le_point (plain : magnitude.Plain) : -3 ≤ magnitude.shortest.point := by
  obtain ⟨steps, power, leading, neighbour, point, -, below⟩ := exists_bounds plain.nonzero
  have reached : 10 ^ 1070 ≤ magnitude.coefficient := by
    have scaled : 10 ^ 1070 * 10000 = unitsPerOne * decimalScale := by decide +kernel
    have units := Nat.mul_le_mul_right decimalScale plain
    rw [← scaled, Nat.mul_comm 10000, Nat.mul_right_comm] at units
    rw [coefficient, Nat.mul_comm]
    exact Nat.le_of_mul_le_mul_right units (by decide)
  have exponents : 10 ^ 1070 < 10 ^ (leading + 1) :=
    Nat.lt_of_le_of_lt (neighbour.le_of_le plain.nonzero reached) below
  have places := (Nat.pow_lt_pow_iff_right (by decide)).mp exponents
  rw [decimalPlaces] at point
  omega

theorem unitsPerOne_dvd_of_le (large : 2 ^ 53 * unitsPerOne ≤ magnitude.units) :
    unitsPerOne ∣ magnitude.units := by
  obtain ⟨-, significand, exponent, small, isUnits⟩ := magnitude.representable
  have unit : unitsPerOne = 2 ^ 1074 := by decide +kernel
  have power : 2 ^ 1074 ≤ 2 ^ exponent := by
    refine Nat.le_of_not_lt fun below => Nat.not_lt.mpr large ?_
    rw [isUnits, unit]
    exact Nat.mul_lt_mul_of_lt_of_lt small below
  rw [isUnits, unit]
  have exponents := (Nat.pow_le_pow_iff_right (by decide)).mp power
  have divides : 2 ^ 1074 ∣ 2 ^ exponent := pow_dvd_pow 2 exponents
  exact Nat.dvd_trans divides (Nat.dvd_mul_left _ _)

/-- What is written with a decimal exponent of `16` and more has no fraction. -/
theorem point_le (nonzero : magnitude.units ≠ 0) (fraction : ¬ unitsPerOne ∣ magnitude.units) :
    magnitude.shortest.point ≤ 16 := by
  obtain ⟨steps, power, leading, neighbour, point, reached, -⟩ := exists_bounds nonzero
  have below : leading < 1090 := by
    refine Nat.lt_of_not_le fun far => fraction (unitsPerOne_dvd_of_le ?_)
    have scaled : 2 ^ 53 * unitsPerOne * decimalScale ≤ 10 ^ 1090 := by decide +kernel
    have large : 2 ^ 53 * unitsPerOne * decimalScale ≤ steps * 10 ^ power :=
      calc 2 ^ 53 * unitsPerOne * decimalScale ≤ 10 ^ 1090 := scaled
        _ ≤ 10 ^ leading := pow_le_pow_right₀ (by decide) far
        _ ≤ steps * 10 ^ power := reached
    let border : Magnitude := ⟨_, Binary64.representable_ones (Nat.le_refl (2 ^ 53))⟩
    have beyond : (border.units : ℚ) ≤ (steps * 10 ^ power : Nat) / decimalScale := by
      rw [le_div_iff₀ (Nat.cast_pos.mpr decimalScale_pos)]
      exact_mod_cast large
    have nearest := Binary64.le_nearestUnits_of_le decimalScale_pos beyond
    rw [readsBack_iff.mp neighbour.readsBack] at nearest
    exact nearest
  rw [decimalPlaces] at point
  omega

end Magnitude

/-! ## The point between the digits -/

namespace DecimalDigits

variable {number : DecimalDigits}

theorem isDigit_zeros {count : Nat} :
    ∀ character ∈ List.replicate count '0', character.isDigit = true := by
  intro character member
  obtain rfl := List.eq_of_mem_replicate member
  rfl

/-- Digits on both sides of a point, and as many zeros behind those of the number as it takes. -/
structure Splits (number : DecimalDigits) (whole places : DigitRun) (zeros : Nat) : Prop where
  text : number.positional = whole.text ++ '.' :: places.text
  value : Nat.ofDigitChars 10 (whole.text ++ places.text) 0 = number.significand * 10 ^ zeros
  length : number.point + places.text.length = number.digits.length + zeros

section Positional

variable (nonempty : number.digits ≠ [])
  (digits : ∀ character ∈ number.digits, character.isDigit = true)

include nonempty digits

theorem splits_before {zeros : Nat} (before : number.point = -(zeros : Int)) :
    number.Splits ⟨['0'], by simp, by simp [Char.isDigit]⟩
      ⟨List.replicate zeros '0' ++ number.digits, by simp [nonempty], by
        intro character member
        exact (List.mem_append.mp member).elim (isDigit_zeros character) (digits character)⟩ 0 := by
  constructor
  case text =>
    have notPositive : number.point ≤ 0 := by omega
    have count : (-number.point).toNat = zeros := by omega
    rw [positional, if_pos notPositive, count]
    rfl
  case value =>
    have zero : Nat.ofDigitChars 10 ['0'] 0 = 0 := rfl
    rw [Nat.ofDigitChars_append, zero, Nat.ofDigitChars_append, Nat.ofDigitChars_replicate_zero,
      Nat.mul_zero, Nat.pow_zero, Nat.mul_one]
    rfl
  case length =>
    simp only [List.length_append, List.length_replicate]
    omega

theorem splits_behind {zeros : Nat} (behind : number.point = number.digits.length + zeros) :
    number.Splits
      ⟨number.digits ++ List.replicate zeros '0', by simp [nonempty], by
        intro character member
        exact (List.mem_append.mp member).elim (digits character) (isDigit_zeros character)⟩
      ⟨['0'], by simp, by simp [Char.isDigit]⟩ (zeros + 1) := by
  have some : 0 < number.digits.length := List.length_pos_iff.mpr nonempty
  constructor
  case text =>
    have positive : ¬ number.point ≤ 0 := by omega
    have all : (number.digits.length : Int) ≤ number.point := by omega
    have count : (number.point - number.digits.length).toNat = zeros := by omega
    rw [positional, if_neg positive, if_pos all, count]
  case value =>
    have zero (start : Nat) : Nat.ofDigitChars 10 ['0'] start = 10 * start := rfl
    rw [Nat.ofDigitChars_append, zero, Nat.ofDigitChars_append, Nat.ofDigitChars_replicate_zero,
      ← Nat.mul_assoc, ← Nat.pow_succ', Nat.mul_comm]
    rfl
  case length =>
    simp only [List.length_singleton]
    omega

theorem splits_between {count : Nat} (isPoint : number.point = count) (positive : 0 < count)
    (inside : count < number.digits.length) :
    number.Splits
      ⟨number.digits.take count, by
        simp [nonempty, Nat.ne_of_gt positive], fun character member =>
          digits character (List.mem_of_mem_take member)⟩
      ⟨number.digits.drop count, by simp [inside], fun character member =>
          digits character (List.mem_of_mem_drop member)⟩ 0 := by
  constructor
  case text =>
    have behindStart : ¬ number.point ≤ 0 := by omega
    have beforeEnd : ¬ (number.digits.length : Int) ≤ number.point := by omega
    have isCount : number.point.toNat = count := by omega
    rw [positional, if_neg behindStart, if_neg beforeEnd, isCount]
  case value =>
    rw [List.take_append_drop, Nat.pow_zero, Nat.mul_one]
    rfl
  case length =>
    simp only [List.length_drop]
    omega

theorem exists_splits : ∃ whole places zeros, number.Splits whole places zeros := by
  by_cases before : number.point ≤ 0
  · obtain ⟨zeros, isZeros⟩ := Int.eq_ofNat_of_zero_le (Int.neg_nonneg_of_nonpos before)
    exact ⟨_, _, _, splits_before nonempty digits (by omega : number.point = -(zeros : Int))⟩
  · obtain ⟨count, isPoint⟩ := Int.eq_ofNat_of_zero_le (Int.le_of_lt (Int.not_le.mp before))
    by_cases inside : count < number.digits.length
    · exact ⟨_, _, _, splits_between nonempty digits isPoint (by omega) inside⟩
    · obtain ⟨zeros, isZeros⟩ := Nat.exists_eq_add_of_le (Nat.le_of_not_lt inside)
      exact ⟨_, _, _, splits_behind nonempty digits
        (by omega : number.point = number.digits.length + (zeros : Int))⟩

end Positional

end DecimalDigits

/-! ## Reading the text -/

namespace Binary64

theorem round_of_nearestUnits {numerator denominator : Nat} {magnitude : Magnitude}
    (negative : Bool) (nearest : nearestUnits numerator denominator = magnitude.units) :
    round negative numerator denominator = .finite negative magnitude := by
  have below : nearestUnits numerator denominator < unitsCeiling := by
    rw [nearest]
    exact magnitude.representable.1
  rw [round_eq_finite negative below]
  exact congrArg (finite negative) (Magnitude.eq_of_units_eq nearest)

theorem ofDecimal_places (negative : Bool) (count : Nat) {places : Nat} (some : 0 < places) :
    ofDecimal negative count (-(places : Int)) =
      round negative (count * unitsPerOne) (10 ^ places) := by
  obtain ⟨others, rfl⟩ := Nat.exists_eq_add_of_lt some
  rw [Nat.zero_add]
  rfl

end Binary64

namespace Magnitude

variable {magnitude : Magnitude} {number : DecimalDigits} {whole places : DigitRun}
  {zeros further : Nat}

/-- The point does not matter: what the digits and the zeros behind them read as, the text does. -/
theorem ofDecimal_of_splits (negative : Bool) (written : magnitude.WrittenAs number zeros)
    (splits : number.Splits whole places further) :
    Binary64.ofDecimal negative (Nat.ofDigitChars 10 (whole.text ++ places.text) 0)
      (-(places.text.length : Int)) = .finite negative magnitude := by
  have some : 0 < places.text.length := List.length_pos_iff.mpr places.nonempty
  rw [Binary64.ofDecimal_places negative _ some, splits.value]
  apply Binary64.round_of_nearestUnits
  rw [← readsBack_iff.mp written.readsBack]
  apply nearestUnits_congr (Nat.pow_pos (by decide)) decimalScale_pos
  have exponents : further + decimalPlaces = zeros + places.text.length := by
    have point := written.point
    have length := splits.length
    omega
  calc number.significand * 10 ^ further * unitsPerOne * decimalScale
      = number.significand * (10 ^ further * (unitsPerOne * decimalScale)) := by
        rw [Nat.mul_assoc, Nat.mul_assoc]
    _ = number.significand * 10 ^ (further + decimalPlaces) := by
        rw [← ten_pow_decimalPlaces, Nat.pow_add]
    _ = number.significand * 10 ^ zeros * 10 ^ places.text.length := by
        rw [exponents, Nat.pow_add, Nat.mul_assoc]

theorem exists_numeral (negative : Bool) (plain : magnitude.Plain)
    (fraction : ¬ unitsPerOne ∣ magnitude.units) :
    ∃ numeral : Numeral,
      (Binary64.finite negative magnitude).plain = String.ofList numeral.text ∧
        numeral.value = .float (.finite negative magnitude) ∧ numeral.fraction ≠ none := by
  obtain ⟨zeros, written⟩ := exists_writtenAs plain.nonzero
  obtain ⟨whole, places, further, splits⟩ :=
    DecimalDigits.exists_splits written.nonempty written.digits
  have value := ofDecimal_of_splits negative written splits
  have positional : magnitude.shortest.layout = magnitude.shortest.positional := by
    have low := le_point plain
    have high := point_le plain.nonzero fraction
    rw [DecimalDigits.layout, if_pos]
    rw [leastPositional, positionalEnd, DecimalDigits.exponent]
    omega
  refine ⟨⟨if negative then .minus else .absent, whole, some places⟩, ?_, ?_, nofun⟩
  · rw [Binary64.plain, positional, splits.text]
    cases negative <;> simp [Numeral.text, Numeral.fractionText, Sign.text]
  · cases negative <;> exact congrArg Number.float value

end Magnitude

end Progressions
