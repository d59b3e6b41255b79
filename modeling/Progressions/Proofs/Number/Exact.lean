import Mathlib.Algebra.Order.Field.Rat
import Mathlib.Order.WithBot
import Progressions.Proofs.Number.Operands

/-!
# Exact values

Every number but not-a-number is exactly a rational number or one of two infinities.  The order of
numbers is the order of these values, whatever the kinds of the two numbers, so a comparison never
rounds.
-/

set_option autoImplicit false

namespace Progressions

/-- The rational numbers with both infinities. -/
abbrev ExtendedRat : Type := WithBot (WithTop ℚ)

def ExtendedRat.ofRat (value : ℚ) : ExtendedRat := ((value : WithTop ℚ) : WithBot (WithTop ℚ))

theorem ExtendedRat.ofRat_lt_iff {left right : ℚ} : ofRat left < ofRat right ↔ left < right := by
  rw [ofRat, ofRat, WithBot.coe_lt_coe, WithTop.coe_lt_coe]

theorem ExtendedRat.ofRat_le_iff {left right : ℚ} : ofRat left ≤ ofRat right ↔ left ≤ right := by
  rw [ofRat, ofRat, WithBot.coe_le_coe, WithTop.coe_le_coe]

namespace Number

/-- What a number stands for, before any rounding. -/
def value? : Number → Option ExtendedRat
  | .int value => some (.ofRat value)
  | .float .nan => none
  | .float (.infinite negative) => some (if negative then ⊥ else ⊤)
  | .float (.finite negative magnitude) =>
    some (.ofRat ((Binary64.signedUnits negative magnitude : ℚ) / (unitsPerOne : ℚ)))

/-- The value of a place on the line. -/
def Place.value : Place → ExtendedRat
  | .leftEnd => ⊥
  | .at units => .ofRat ((units : ℚ) / (unitsPerOne : ℚ))
  | .rightEnd => ⊤

theorem unitsPerOne_pos_rat : (0 : ℚ) < unitsPerOne := Nat.cast_pos.mpr unitsPerOne_pos

theorem Place.at_lt_at_iff {left right : Int} :
    (Place.at left).value < (Place.at right).value ↔ left < right := by
  rw [value, value, ExtendedRat.ofRat_lt_iff,
    div_lt_div_iff_of_pos_right unitsPerOne_pos_rat, Int.cast_lt]

theorem Place.leftEnd_lt_at (units : Int) : leftEnd.value < (Place.at units).value :=
  WithBot.bot_lt_coe _

theorem Place.at_lt_rightEnd (units : Int) : (Place.at units).value < rightEnd.value :=
  WithBot.coe_lt_coe.mpr (WithTop.coe_lt_top _)

theorem Place.leftEnd_lt_rightEnd : leftEnd.value < rightEnd.value := WithBot.bot_lt_coe _

theorem Place.compare_eq_cmp (left right : Place) :
    left.compare right = cmp left.value right.value := by
  symm
  cases left with
  | leftEnd => cases right with
    | leftEnd => exact cmp_self_eq_eq _
    | «at» right => exact (cmp_eq_lt_iff _ _).mpr (leftEnd_lt_at right)
    | rightEnd => exact (cmp_eq_lt_iff _ _).mpr leftEnd_lt_rightEnd
  | «at» left => cases right with
    | leftEnd => exact (cmp_eq_gt_iff _ _).mpr (leftEnd_lt_at left)
    | «at» right =>
      have mono : StrictMono fun units : Int => (Place.at units).value :=
        fun _ _ smaller => at_lt_at_iff.mpr smaller
      exact (mono.cmp_map_eq left right).trans (cmp_eq_compare _ _)
    | rightEnd => exact (cmp_eq_lt_iff _ _).mpr (at_lt_rightEnd left)
  | rightEnd => cases right with
    | leftEnd => exact (cmp_eq_gt_iff _ _).mpr leftEnd_lt_rightEnd
    | «at» right => exact (cmp_eq_gt_iff _ _).mpr (at_lt_rightEnd right)
    | rightEnd => exact cmp_self_eq_eq _

theorem value?_eq_map (number : Number) : number.value? = number.place?.map Place.value := by
  cases number with
  | int value =>
    have scaled : (value : ℚ) = ((value * unitsPerOne : Int) : ℚ) / (unitsPerOne : ℚ) := by
      rw [Int.cast_mul, Int.cast_natCast, mul_div_cancel_right₀ _ unitsPerOne_pos_rat.ne']
    rw [value?, scaled]
    rfl
  | float value => cases value with
    | nan => rfl
    | infinite negative => cases negative <;> rfl
    | finite negative magnitude => rfl

variable {left right : Number} {here there : ExtendedRat}

/-- Two numbers are compared by their exact values. -/
theorem compare?_eq_cmp (isHere : left.value? = some here) (isThere : right.value? = some there) :
    left.compare? right = some (cmp here there) := by
  rw [value?_eq_map, Option.map_eq_some_iff] at isHere isThere
  obtain ⟨leftPlace, leftFound, rfl⟩ := isHere
  obtain ⟨rightPlace, rightFound, rfl⟩ := isThere
  rw [compare?, leftFound, rightFound, ← Place.compare_eq_cmp]
  rfl

theorem less_iff (isHere : left.value? = some here) (isThere : right.value? = some there) :
    left.less right = true ↔ here < there := by
  rw [less, compare?_eq_cmp isHere isThere, beq_iff_eq, Option.some_inj, cmp_eq_lt_iff]

theorem greater_iff (isHere : left.value? = some here) (isThere : right.value? = some there) :
    left.greater right = true ↔ there < here := by
  rw [greater, compare?_eq_cmp isHere isThere, beq_iff_eq, Option.some_inj, cmp_eq_gt_iff]

theorem equals_value_iff (isHere : left.value? = some here) (isThere : right.value? = some there) :
    left.equals right = true ↔ here = there := by
  rw [equals, compare?_eq_cmp isHere isThere, beq_iff_eq, Option.some_inj, cmp_eq_eq_iff]

theorem atLeast_iff (isHere : left.value? = some here) (isThere : right.value? = some there) :
    left.atLeast right = true ↔ there ≤ here := by
  rw [atLeast, Bool.or_eq_true, greater_iff isHere isThere, equals_value_iff isHere isThere,
    le_iff_lt_or_eq, eq_comm]

theorem exists_value {number : Number} (comparable : number ≠ .float .nan) :
    ∃ value, number.value? = some value := by
  cases number with
  | int value => exact ⟨_, rfl⟩
  | float value => cases value with
    | nan => contradiction
    | infinite negative => exact ⟨_, rfl⟩
    | finite negative magnitude => exact ⟨_, rfl⟩

theorem atLeast_int {left right : Int} :
    (Number.int left).atLeast (.int right) = true ↔ right ≤ left := by
  rw [atLeast_iff rfl rfl, ExtendedRat.ofRat_le_iff, Int.cast_le]

end Number

end Progressions
