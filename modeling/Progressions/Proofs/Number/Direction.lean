import Progressions.Proofs.Number.Approximation

/-!
# Directions of sums and products

A rounded sum does not lie on the other side of its first operand than the exact sum does, and the
same holds of a product.  So adding a number that is not negative never leads down, and neither does
multiplying a positive number by one that is at least one; a negative number is led the other way.
-/

set_option autoImplicit false

namespace Progressions

/-- Seen in the direction, the second number does not lie behind the first. -/
def Number.Heads (rising : Bool) (start moved : Number) : Prop :=
  if rising then moved.less start = false else moved.greater start = false

namespace Number.Heads

variable {rising : Bool} {start moved : Number}

theorem of_le {here there : ExtendedRat} (isStart : start.value? = some here)
    (isMoved : moved.value? = some there)
    (ahead : if rising then here ≤ there else there ≤ here) : Heads rising start moved := by
  unfold Heads
  cases rising with
  | true =>
    exact Bool.eq_false_iff.mpr fun less =>
      not_lt_of_ge ahead ((less_iff isMoved isStart).mp less)
  | false =>
    exact Bool.eq_false_iff.mpr fun more =>
      not_lt_of_ge ahead ((greater_iff isMoved isStart).mp more)

theorem to_nan (rising : Bool) (start : Number) : Heads rising start (.float .nan) := by
  cases rising <;> rfl

theorem refl (rising : Bool) (start : Number) : Heads rising start start := by
  by_cases isNan : start = .float .nan
  · rw [isNan]
    exact to_nan rising _
  · obtain ⟨here, isHere⟩ := exists_value isNan
    exact of_le isHere isHere (by cases rising <;> exact le_rfl)

end Number.Heads

namespace Binary64

variable {left right : Binary64} {negative otherNegative rising : Bool}

/-! ## Signs -/

/-- The number has the sign, unless it is not-a-number. -/
inductive Bears (negative : Bool) : Binary64 → Prop
  | nan : Bears negative .nan
  | infinite : Bears negative (.infinite negative)
  | finite (magnitude : Magnitude) : Bears negative (.finite negative magnitude)

theorem bears_round (negative : Bool) (numerator denominator : Nat) :
    Bears negative (round negative numerator denominator) := by
  rcases Nat.lt_or_ge (nearestUnits numerator denominator) unitsCeiling with below | beyond
  · rw [round_eq_finite negative below]
    exact .finite _
  · rw [round_eq_infinite negative beyond]
    exact .infinite

theorem Bears.mul (leftBears : Bears negative left) (rightBears : Bears otherNegative right) :
    Bears (negative != otherNegative) (left.mul right) := by
  cases leftBears with
  | nan => exact .nan
  | infinite => cases rightBears with
    | nan => exact .nan
    | infinite => exact .infinite
    | finite magnitude =>
      simp only [Binary64.mul]
      split
      · exact .nan
      · exact .infinite
  | finite magnitude => cases rightBears with
    | nan => exact .nan
    | infinite =>
      simp only [Binary64.mul]
      split
      · exact .nan
      · exact .infinite
    | finite other => exact bears_round _ _ _

theorem Bears.div (leftBears : Bears negative left) (rightBears : Bears otherNegative right) :
    Bears (negative != otherNegative) (left.div right) := by
  cases leftBears with
  | nan => exact .nan
  | infinite => cases rightBears with
    | nan => exact .nan
    | infinite => exact .nan
    | finite magnitude => exact .infinite
  | finite magnitude => cases rightBears with
    | nan => exact .nan
    | infinite => exact bears_round _ _ _
    | finite other =>
      simp only [Binary64.div]
      split
      · split
        · exact .nan
        · exact .infinite
      · exact bears_round _ _ _

theorem Bears.ofInt (whole : Int) : Bears (decide (whole < 0)) (Binary64.ofInt whole) :=
  bears_round _ _ _

theorem Bears.ofQuotient (dividend divisor : Int) :
    Bears (decide (dividend < 0) != decide (divisor < 0)) (Binary64.ofQuotient dividend divisor) :=
  bears_round _ _ _

/-! ## Directions -/

/-- Nothing but not-a-number and what points in the direction. -/
def Points (rising : Bool) (number : Binary64) : Prop :=
  ∀ place, (Number.float number).value? = some place →
    if rising then .ofRat 0 ≤ place else place ≤ .ofRat 0

/-- Rounding does not lead over the number that the exact result lies ahead of. -/
theorem Approximates.heads {exact value : ℚ} (approximates : Approximates exact right)
    (isValue : (Number.float left).value? = some (.ofRat value))
    (ahead : if rising then value ≤ exact else exact ≤ value) :
    Number.Heads rising (.float left) (.float right) := by
  obtain ⟨place, isPlace⟩ := approximates.exists_place
  refine .of_le isValue isPlace ?_
  cases rising with
  | true => exact approximates.le_value ⟨left, isValue⟩ ahead isPlace
  | false => exact approximates.value_le ⟨left, isValue⟩ ahead isPlace

theorem add_heads (left : Binary64) (points : Points rising right) :
    Number.Heads rising (.float left) (.float (left.add right)) := by
  cases left with
  | nan => exact .to_nan _ _
  | infinite negative => cases right with
    | nan => exact .to_nan _ _
    | infinite otherNegative =>
      simp only [add]
      split
      · exact .refl _ _
      · exact .to_nan _ _
    | finite otherNegative other => exact .refl _ _
  | finite negative magnitude => cases right with
    | nan => exact .to_nan _ _
    | infinite otherNegative =>
      have ahead := points _ rfl
      refine .of_le (value?_finite negative magnitude) rfl ?_
      cases otherNegative with
      | false => cases rising with
        | false => exact absurd (top_le_iff.mp ahead) (ExtendedRat.ofRat_ne_top 0)
        | true => exact le_top
      | true => cases rising with
        | false => exact bot_le
        | true => exact absurd (le_bot_iff.mp ahead) (ExtendedRat.ofRat_ne_bot 0)
    | finite otherNegative other =>
      have here := value?_finite negative magnitude
      have added := value?_finite otherNegative other
      refine (approximates_add here added).heads here ?_
      have ahead := points _ added
      cases rising with
      | false => exact add_le_of_nonpos_right (ExtendedRat.ofRat_le_iff.mp ahead)
      | true => exact le_add_of_nonneg_right (ExtendedRat.ofRat_le_iff.mp ahead)

theorem signed_mul_ahead (negative : Bool) {size factor : ℚ} (nonneg : 0 ≤ size)
    (atLeastOne : rising = true ↔ 1 ≤ factor) :
    if rising != negative then signed negative size ≤ signed negative size * factor
      else signed negative size * factor ≤ signed negative size := by
  rw [signed_mul]
  cases rising with
  | true =>
    have grows := le_mul_of_one_le_right nonneg (atLeastOne.mp rfl)
    cases negative with
    | false => exact grows
    | true => exact neg_le_neg grows
  | false =>
    have small : factor < 1 := not_le.mp (mt atLeastOne.mpr Bool.false_ne_true)
    have shrinks := mul_le_of_le_one_right nonneg small.le
    cases negative with
    | false => exact shrinks
    | true => exact neg_le_neg shrinks

/-- A number with a sign is led away from zero by a factor that is at least one, and towards zero
by a smaller one that is not negative. -/
theorem mul_heads (leftBears : Bears negative left) (rightBears : Bears false right)
    (rises : (Number.float right).atLeast (.int 1) = rising) :
    Number.Heads (rising != negative) (.float left) (.float (left.mul right)) := by
  cases leftBears with
  | nan => exact .to_nan _ _
  | infinite => cases rightBears with
    | nan => exact .to_nan _ _
    | infinite =>
      simp only [mul, Bool.bne_false]
      exact .refl _ _
    | finite factor =>
      simp only [mul, Bool.bne_false]
      split
      · exact .to_nan _ _
      · exact .refl _ _
  | finite magnitude => cases rightBears with
    | nan => exact .to_nan _ _
    | infinite =>
      have always : (Number.float (.infinite false)).atLeast (.int 1) = true := by decide +kernel
      rw [always] at rises
      subst rises
      simp only [mul]
      split
      · exact .to_nan _ _
      · refine .of_le (value?_finite negative magnitude) rfl ?_
        cases negative with
        | false => exact le_top
        | true => exact bot_le
    | finite factor =>
      have here := value?_finite negative magnitude
      have multiplied := value?_finite false factor
      have one : (Number.int 1).value? = some (.ofRat (1 : Int)) := rfl
      have atLeastOne := Number.atLeast_iff multiplied one
      rw [rises, ExtendedRat.ofRat_le_iff] at atLeastOne
      have size : (0 : ℚ) ≤ magnitude.units / unitsPerOne :=
        div_nonneg (Nat.cast_nonneg _) (Nat.cast_nonneg _)
      refine (approximates_mul here multiplied).heads here ?_
      rw [signed_div negative]
      exact signed_mul_ahead negative size (by exact_mod_cast atLeastOne)

end Binary64

end Progressions
