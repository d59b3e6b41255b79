import Progressions.Proofs.Grammar.Literals
import Progressions.Proofs.Number.Nearest
import Progressions.Proofs.Pattern.Integers

/-!
# Integers with a common ratio

The ratios of integers are rounded before they are compared.  For short integers the comparison is
right nevertheless: rounding merges no two of their quotients and splits none, so a list has a
common ratio exactly when its numbers are proportional.
-/

set_option autoImplicit false

namespace Progressions

/-- Integers below it in size have quotients that rounding keeps apart. -/
def shortCeiling : Nat := 2 ^ 26

def Short (whole : Int) : Prop := whole.natAbs < shortCeiling

instance : DecidablePred Short := fun whole =>
  inferInstanceAs (Decidable (whole.natAbs < shortCeiling))

theorem Short.divisible {dividend divisor : Int} (short : Short dividend)
    (divisorNonzero : divisor ≠ 0) : dividend.natAbs < roundingCeiling * divisor.natAbs := by
  have ceiling : shortCeiling ≤ roundingCeiling := by decide +kernel
  have positive := Int.natAbs_pos.mpr divisorNonzero
  exact Nat.lt_of_lt_of_le short (Nat.le_trans ceiling (Nat.le_mul_of_pos_right _ positive))

/-! ## Equal quotients -/

namespace Binary64

theorem equals_finite {negative otherNegative : Bool} {magnitude other : Magnitude} :
    (Number.float (.finite negative magnitude)).equals (.float (.finite otherNegative other)) =
        true ↔
      magnitude.units = other.units ∧ (magnitude.units = 0 ∨ negative = otherNegative) := by
  have places : (Number.float (.finite negative magnitude)).equals
      (.float (.finite otherNegative other)) = true ↔
        signedUnits negative magnitude = signedUnits otherNegative other := by
    rw [Number.equals_iff]
    constructor
    · rintro ⟨place, here, there⟩
      exact Number.Place.at.inj (Option.some.inj (here.trans there.symm))
    · intro same
      exact ⟨_, rfl, congrArg (some ∘ Number.Place.at) same.symm⟩
  rw [places]
  cases negative <;> cases otherNegative <;> simp [signedUnits] <;> omega

theorem eq_iff_abs {left right : ℚ} :
    left = right ↔ |left| = |right| ∧ (left = 0 ∨ (left < 0 ↔ right < 0)) := by
  constructor
  · rintro rfl
    exact ⟨rfl, .inr Iff.rfl⟩
  · rintro ⟨sameSize, zero | sameSign⟩
    · rw [zero, abs_zero] at sameSize
      rw [zero, abs_eq_zero.mp sameSize.symm]
    · rcases abs_eq_abs.mp sameSize with same | opposite
      · exact same
      · rw [opposite, neg_lt_zero] at sameSign
        have zero : right = 0 := by
          rcases lt_trichotomy right 0 with low | zero | high
          · exact absurd (sameSign.mpr low) (lt_asymm low)
          · exact zero
          · exact absurd (sameSign.mp high) (lt_asymm high)
        rw [opposite, zero, neg_zero]

variable {first left second right : Int}

theorem abs_quotient_eq_iff (leftNonzero : left ≠ 0) (rightNonzero : right ≠ 0) :
    |(first : ℚ) / left| = |(second : ℚ) / right| ↔
      first.natAbs * right.natAbs = second.natAbs * left.natAbs := by
  have leftSize : (left.natAbs : ℚ) ≠ 0 := Nat.cast_ne_zero.mpr (Int.natAbs_ne_zero.mpr leftNonzero)
  have rightSize : (right.natAbs : ℚ) ≠ 0 :=
    Nat.cast_ne_zero.mpr (Int.natAbs_ne_zero.mpr rightNonzero)
  rw [abs_quotient, abs_quotient, div_eq_div_iff leftSize rightSize]
  norm_cast

theorem quotient_eq_iff (leftNonzero : left ≠ 0) (rightNonzero : right ≠ 0) :
    (first : ℚ) / left = (second : ℚ) / right ↔ first * right = second * left := by
  rw [div_eq_div_iff (Int.cast_ne_zero.mpr leftNonzero) (Int.cast_ne_zero.mpr rightNonzero)]
  norm_cast

/-- Rounded quotients of short integers are equal exactly when the quotients are. -/
theorem equals_ofQuotient_iff (leftNonzero : left ≠ 0) (rightNonzero : right ≠ 0)
    (firstShort : Short first) (leftShort : Short left) (secondShort : Short second)
    (rightShort : Short right) :
    (Number.float (ofQuotient first left)).equals (.float (ofQuotient second right)) = true ↔
      first * right = second * left := by
  obtain ⟨magnitude, isFinite, units⟩ :=
    ofQuotient_eq_units leftNonzero (firstShort.divisible leftNonzero)
  obtain ⟨other, otherFinite, otherUnits⟩ :=
    ofQuotient_eq_units rightNonzero (secondShort.divisible rightNonzero)
  have leftPositive := Int.natAbs_pos.mpr leftNonzero
  have rightPositive := Int.natAbs_pos.mpr rightNonzero
  have sameSize : magnitude.units = other.units ↔
      |(first : ℚ) / left| = |(second : ℚ) / right| := by
    rw [units, otherUnits, abs_quotient_eq_iff leftNonzero rightNonzero]
    exact nearestUnits_quotient_eq_iff leftPositive rightPositive firstShort leftShort
      secondShort rightShort
  rw [isFinite, otherFinite, equals_finite, ← quotient_eq_iff leftNonzero rightNonzero,
    eq_iff_abs, sameSize]
  refine and_congr_right fun same => ?_
  by_cases zero : first = 0
  · have noUnits : magnitude.units = 0 := by
      rw [units, zero, Int.natAbs_zero, Nat.zero_mul, nearestUnits_zero]
    exact iff_of_true (.inl noUnits) (.inl (by rw [zero, Int.cast_zero, zero_div]))
  · have nonzero : (first : ℚ) / left ≠ 0 :=
      div_ne_zero (Int.cast_ne_zero.mpr zero) (Int.cast_ne_zero.mpr leftNonzero)
    have otherNonzero : second ≠ 0 := by
      rintro rfl
      rw [Int.cast_zero, zero_div, abs_zero] at same
      exact nonzero (abs_eq_zero.mp same)
    have someUnits : magnitude.units ≠ 0 := by
      intro noUnits
      have short : left.natAbs ≤ unitsPerOne :=
        Nat.le_trans (Nat.le_of_lt leftShort) (by decide +kernel)
      rw [units, nearestUnits_ones_eq_zero_iff leftPositive short] at noUnits
      exact zero (Int.natAbs_eq_zero.mp noUnits)
    rw [or_iff_right someUnits, or_iff_right nonzero, Bool.eq_iff_iff,
      sign_ofQuotient zero leftNonzero, sign_ofQuotient otherNonzero rightNonzero]

end Binary64

namespace Pattern

/-! ## The common ratio -/

/-- No integer is zero, and every one is to the one before it as the second is to the first. -/
def Proportionally (first second : Int) (wholes : List Int) : Prop :=
  (∀ whole ∈ wholes, whole ≠ 0) ∧
    wholes.IsChain fun previous current => current * first = previous * second

variable {first second third previous : Int} {rest : List Int}

theorem ratio_int {current : Int} (nonzero : previous ≠ 0) (short : Short current) :
    ratio (.int previous) (.int current) =
      .ok (some (.float (Binary64.ofQuotient current previous))) := by
  have notZero : (Number.int previous).isZero = false :=
    Bool.of_not_eq_true (mt Number.isZero_int.mp nonzero)
  obtain ⟨-, divided⟩ := Number.div_int current notZero
  obtain ⟨magnitude, isFinite, -⟩ :=
    Binary64.ofQuotient_eq_units nonzero (short.divisible nonzero)
  rw [ratio, notZero, divided, isFinite]
  rfl

theorem ratio_zero (current : Int) : ratio (.int 0) (.int current) = .ok none := by
  rw [ratio, if_pos (Number.isZero_int.mpr rfl)]

theorem isSteady_ratio (firstNonzero : first ≠ 0) (secondNonzero : second ≠ 0)
    (previousNonzero : previous ≠ 0) (firstShort : Short first) (secondShort : Short second)
    (short : ∀ whole ∈ previous :: rest, Short whole) :
    isSteady ratio (.float (Binary64.ofQuotient second first)) (.int previous) (rest.map .int) =
        .ok true ↔
      Proportionally first second (previous :: rest) := by
  -- The number just compared is the next divisor, and no zero is proportional to the others.
  induction rest generalizing previous with
  | nil => simp [isSteady, Proportionally, previousNonzero]
  | cons current rest inductionHypothesis =>
    have previousShort := short previous List.mem_cons_self
    have currentShort := short current (by simp)
    have linked := ratio_int previousNonzero currentShort
    have compared := Binary64.equals_ofQuotient_iff previousNonzero firstNonzero currentShort
      previousShort secondShort firstShort
    rw [List.map_cons, isSteady_cons linked, Proportionally, List.isChain_cons_cons]
    by_cases same : current * first = second * previous
    · have currentNonzero : current ≠ 0 := by
        rintro rfl
        rw [Int.zero_mul] at same
        exact Int.mul_ne_zero secondNonzero previousNonzero same.symm
      rw [if_pos (compared.mpr same), inductionHypothesis currentNonzero
        fun whole member => short whole (List.mem_cons_of_mem previous member), Proportionally]
      simp [previousNonzero, currentNonzero, same, Int.mul_comm]
    · rw [if_neg (mt compared.mp same)]
      rw [Int.mul_comm second] at same
      simp [same]

theorem ifSteady_eq_some_iff {step found : Number} {steady : Except NumberError Bool} :
    ifSteady step steady = .ok (some found) ↔ steady = .ok true ∧ found = step := by
  cases steady with
  | error cause => simp [ifSteady, Except.map, Except.mapError]
  | ok answer => cases answer <;> simp [ifSteady, Except.map, Except.mapError, eq_comm]

/-- A second number that is zero is noticed only as a divisor, so there has to be a third. -/
theorem commonStep_ratio (short : ∀ whole ∈ first :: second :: third :: rest, Short whole)
    (step : Number) :
    commonStep ratio ((first :: second :: third :: rest).map .int) = .ok (some step) ↔
      Proportionally first second (first :: second :: third :: rest) ∧
        step = .float (Binary64.ofQuotient second first) := by
  have firstShort := short first (by simp)
  have secondShort := short second (by simp)
  rw [List.map_cons, List.map_cons]
  by_cases firstZero : first = 0
  · subst firstZero
    rw [commonStep_of_unlinked (ratio_zero second)]
    simp [Proportionally]
  · rw [commonStep_of_linked (ratio_int firstZero secondShort), ifSteady_eq_some_iff]
    refine and_congr_left fun _ => ?_
    by_cases secondZero : second = 0
    · subst secondZero
      rw [List.map_cons, isSteady, ratio_zero]
      simp [Proportionally, bind, Except.bind, pure, Except.pure]
    · rw [isSteady_ratio firstZero secondZero secondZero firstShort secondShort
        fun whole member => short whole (List.mem_cons_of_mem first member)]
      simp [Proportionally, firstZero, Int.mul_comm]

/-! ## Classification -/

variable {wholes : List Int}

theorem classify_geometric_iff (short : ∀ whole ∈ first :: second :: third :: rest, Short whole)
    (location : Option Location) (step : Number) :
    classify ((first :: second :: third :: rest).map .int) location = .ok ⟨.geometric, step⟩ ↔
      ¬ IsArithmetic (first :: second :: third :: rest) ∧
        Proportionally first second (first :: second :: third :: rest) ∧
          ∃ near, step = .float near ∧ near.Rounds ((second : ℚ) / first) := by
  have several : 2 ≤ (first :: second :: third :: rest).length := by simp
  have severalNumbers : 2 ≤ ((first :: second :: third :: rest).map Number.int).length := by simp
  have rounded (proportionally : Proportionally first second (first :: second :: third :: rest)) :
      (∃ near, step = .float near ∧ near.Rounds ((second : ℚ) / first)) ↔
        step = .float (Binary64.ofQuotient second first) := by
    have firstNonzero := proportionally.1 first (by simp)
    have rounds := Binary64.ofQuotient_rounds (proportionally.1 second (by simp)) firstNonzero
      ((short second (by simp)).divisible firstNonzero)
    constructor
    · rintro ⟨near, rfl, nearRounds⟩
      rw [nearRounds.unique rounds]
    · intro isQuotient
      exact ⟨_, isQuotient, rounds⟩
  rw [and_congr_right rounded, ← commonStep_ratio short, ← commonDifference_eq_none_iff several]
  constructor
  · intro classified
    rcases classify_eq_ok severalNumbers classified with ⟨arithmetic, -⟩ | ⟨-, found⟩
    · cases arithmetic
    · exact found
  · rintro ⟨noDifference, related⟩
    rw [classify_of_no_difference severalNumbers noDifference, related]

/-- Short integers are classified, or rejected by a fault that carries them. -/
theorem classify_short (several : 2 ≤ wholes.length) (short : ∀ whole ∈ wholes, Short whole)
    (location : Option Location) :
    (∃ classification, classify (wholes.map .int) location = .ok classification) ∨
      classify (wholes.map .int) location =
        .error (.unclassifiable (wholes.map .int) location) := by
  have below : ∀ number ∈ wholes.map Number.int, number.IntegerBelow shortCeiling := by
    intro number member
    obtain ⟨whole, present, rfl⟩ := List.mem_map.mp member
    exact short whole present
  refine classify_inside location (by rwa [List.length_map]) ?_ ?_
  · refine not_overflowing_of_convertible fun number member => ?_
    exact Number.convertible_of_integerBelow (below number member) (by decide +kernel)
  · refine List.all_eq_true.mpr fun number member => ?_
    exact Number.writable_of_integerBelow (below number member) (by decide +kernel)

/-- Integers are arithmetic with a step exactly when all neighbours differ by it, however large
they are.  Short integers are geometric exactly when they are not arithmetic, not zero and
proportional; the step is then the correctly rounded quotient of the second by the first, and in
every other case the fault carries them.  So rounding merges no two of their ratios and splits
none. -/
theorem classify_int (enough : 3 ≤ wholes.length) (location : Option Location) :
    (∀ step, classify (wholes.map .int) location = .ok ⟨.arithmetic, step⟩ ↔
      ∃ difference, step = .int difference ∧ Evenly difference wholes) ∧
    ((∀ whole ∈ wholes, Short whole) →
      (∀ step, classify (wholes.map .int) location = .ok ⟨.geometric, step⟩ ↔
        ¬ IsArithmetic wholes ∧ Proportionally wholes[0] wholes[1] wholes ∧
          ∃ near, step = .float near ∧ near.Rounds ((wholes[1] : ℚ) / wholes[0])) ∧
      (¬ IsArithmetic wholes → ¬ Proportionally wholes[0] wholes[1] wholes →
        classify (wholes.map .int) location =
          .error (.unclassifiable (wholes.map .int) location))) ∧
    ∀ first left second right : Int, left ≠ 0 → right ≠ 0 →
      Short first → Short left → Short second → Short right →
        ((Number.float (Binary64.ofQuotient first left)).equals
            (.float (Binary64.ofQuotient second right)) = true ↔
          first * right = second * left) := by
  have several : 2 ≤ wholes.length := by omega
  refine ⟨classify_arithmetic_iff several location, fun short => ?_, ?_⟩
  · match wholes with
    | [] | [_] | [_, _] => simp at enough
    | first :: second :: third :: rest =>
      have geometric := classify_geometric_iff short location
      refine ⟨geometric, ?_⟩
      intro uneven disproportionate
      rcases classify_short several short location with ⟨⟨pattern, step⟩, classified⟩ | rejected
      · cases pattern with
        | arithmetic =>
          obtain ⟨difference, -, evenly⟩ :=
            (classify_arithmetic_iff several location step).mp classified
          exact absurd ⟨difference, evenly⟩ uneven
        | geometric =>
          obtain ⟨-, proportionally, -⟩ := (geometric step).mp classified
          exact absurd proportionally disproportionate
      · exact rejected
  · intro first left second right leftNonzero rightNonzero
    exact Binary64.equals_ofQuotient_iff leftNonzero rightNonzero

/-- Nine, fifteen and twenty-five have a ratio that no binary fraction equals. -/
theorem classify_int_thirds :
    3 ≤ [(9 : Int), 15, 25].length ∧ (∀ whole ∈ [(9 : Int), 15, 25], Short whole) ∧
      ∃ near : Binary64, near.Rounds (((15 : Int) : ℚ) / (9 : Int)) ∧
        classify ([9, 15, 25].map .int) none = .ok ⟨.geometric, .float near⟩ := by
  have enough : 3 ≤ [(9 : Int), 15, 25].length := by decide
  have short : ∀ whole ∈ [(9 : Int), 15, 25], Short whole := by decide
  have uneven : ¬ IsArithmetic [9, 15, 25] := by
    rintro ⟨difference, evenly⟩
    simp [Evenly] at evenly
    omega
  have proportionally : Proportionally 9 15 [9, 15, 25] := by simp [Proportionally]
  have rounds : (Binary64.ofQuotient 15 9).Rounds (((15 : Int) : ℚ) / (9 : Int)) :=
    Binary64.ofQuotient_rounds (by decide) (by decide) (by decide +kernel)
  obtain ⟨-, geometric, -⟩ := classify_int enough none
  exact ⟨enough, short, _, rounds,
    ((geometric short).1 _).mpr ⟨uneven, proportionally, _, rfl, rounds⟩⟩

end Pattern

end Progressions
