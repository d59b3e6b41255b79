import Progressions.Number.Basic
import Progressions.Proofs.Number.Range
import Progressions.Proofs.Result

/-!
# Operands in range

An operation on numbers fails only for an integer that has to be rounded and is too large for it,
or for a quotient that is.  `Compatible` and `Divisible` are the exact conditions on the operands.
-/

set_option autoImplicit false

namespace Progressions

def NumberError.IsOverflow (cause : NumberError) : Prop :=
  cause = .operandTooLarge ∨ cause = .quotientTooLarge

namespace Number

/-- The number has a nearest binary64 number. -/
def Convertible : Number → Prop
  | .int value => value.natAbs < roundingCeiling
  | .float _ => True

/-- The two numbers are integers, which stay exact, or both have a nearest binary64 number. -/
def Compatible : Number → Number → Prop
  | .int _, .int _ => True
  | left, right => left.Convertible ∧ right.Convertible

/-- The quotient of two integers is in range, or both numbers have a nearest binary64 number. -/
def Divisible : Number → Number → Prop
  | .int dividend, .int divisor => dividend.natAbs < roundingCeiling * divisor.natAbs
  | left, right => left.Convertible ∧ right.Convertible

instance : DecidablePred Convertible
  | .int value => inferInstanceAs (Decidable (value.natAbs < roundingCeiling))
  | .float _ => inferInstanceAs (Decidable True)

instance : DecidableRel Compatible
  | .int _, .int _ => .isTrue True.intro
  | .int _, .float _ => inferInstanceAs (Decidable (Convertible _ ∧ Convertible _))
  | .float _, _ => inferInstanceAs (Decidable (Convertible _ ∧ Convertible _))

instance : DecidableRel Divisible
  | .int dividend, .int divisor =>
    inferInstanceAs (Decidable (dividend.natAbs < roundingCeiling * divisor.natAbs))
  | .int _, .float _ => inferInstanceAs (Decidable (Convertible _ ∧ Convertible _))
  | .float _, _ => inferInstanceAs (Decidable (Convertible _ ∧ Convertible _))

variable {left right : Number}

theorem Compatible.of_convertible (leftConvertible : left.Convertible)
    (rightConvertible : right.Convertible) : Compatible left right := by
  cases left with
  | int => cases right with
    | int => exact True.intro
    | float => exact ⟨leftConvertible, rightConvertible⟩
  | float => exact ⟨leftConvertible, rightConvertible⟩

/-! ## Equal numbers -/

theorem Place.compare_eq_iff {left right : Place} : left.compare right = .eq ↔ left = right := by
  cases left <;> cases right <;> simp [Place.compare]

theorem equals_iff : left.equals right = true ↔
    ∃ place, left.place? = some place ∧ right.place? = some place := by
  unfold equals compare?
  cases left.place? with
  | none => simp
  | some leftPlace => cases right.place? with
    | none => simp
    | some rightPlace =>
      constructor
      · intro same
        have compared : leftPlace.compare rightPlace = .eq := by simpa using same
        exact ⟨leftPlace, rfl, by rw [Place.compare_eq_iff.mp compared]⟩
      · rintro ⟨place, here, there⟩
        cases here
        cases there
        simp [Place.compare_eq_iff]

/-- Only not-a-number differs from itself. -/
theorem equals_self_iff {number : Number} : number.equals number = true ↔ number ≠ .float .nan := by
  rw [equals_iff]
  constructor
  · rintro ⟨place, found, -⟩ rfl
    cases found
  · intro isPlace
    cases number with
    | int value => exact ⟨_, rfl, rfl⟩
    | float value => cases value with
      | nan => contradiction
      | infinite negative => exact ⟨_, rfl, rfl⟩
      | finite negative magnitude => exact ⟨_, rfl, rfl⟩

theorem right_ne_nan_of_equals (same : left.equals right = true) : right ≠ .float .nan := by
  obtain ⟨place, -, found⟩ := equals_iff.mp same
  rintro rfl
  cases found

/-- Nothing else equals an infinity. -/
theorem right_eq_of_equals_infinite {negative : Bool}
    (same : (Number.float (.infinite negative)).equals right = true) :
    right = .float (.infinite negative) := by
  obtain ⟨place, here, there⟩ := equals_iff.mp same
  cases right with
  | int whole => cases negative <;> cases here <;> cases there
  | float value => cases value with
    | nan => cases there
    | finite => cases negative <;> cases here <;> cases there
    | infinite sign => cases negative <;> cases sign <;> cases here <;> cases there <;> rfl

theorem equals_comm (left right : Number) : left.equals right = right.equals left := by
  rw [Bool.eq_iff_iff, equals_iff, equals_iff]
  exact exists_congr fun place => and_comm

theorem signedUnits_eq_zero (negative : Bool) {magnitude : Magnitude} :
    Binary64.signedUnits negative magnitude = 0 ↔ magnitude.units = 0 := by
  cases negative <;> simp [Binary64.signedUnits]

theorem natAbs_signedUnits (negative : Bool) (magnitude : Magnitude) :
    (Binary64.signedUnits negative magnitude).natAbs = magnitude.units := by
  cases negative <;> simp [Binary64.signedUnits]

theorem isZero_int {value : Int} : (Number.int value).isZero = true ↔ value = 0 := by
  have unit : (unitsPerOne : Int) ≠ 0 := Int.natCast_ne_zero_iff_pos.mpr unitsPerOne_pos
  rw [isZero, equals_iff]
  constructor
  · rintro ⟨place, found, zero⟩
    have scaled : value * unitsPerOne = 0 * unitsPerOne :=
      Place.at.inj (Option.some.inj (found.trans zero.symm))
    rw [Int.zero_mul] at scaled
    exact (Int.mul_eq_zero.mp scaled).resolve_right unit
  · rintro rfl
    exact ⟨_, rfl, rfl⟩

theorem isZero_float (value : Binary64) : (Number.float value).isZero = value.isZero := by
  cases value with
  | nan => rfl
  | infinite negative => cases negative <;> rfl
  | finite negative magnitude =>
    rw [Bool.eq_iff_iff, isZero, equals_iff]
    simp only [Binary64.isZero, beq_iff_eq]
    rw [← signedUnits_eq_zero negative]
    constructor
    · rintro ⟨place, found, zero⟩
      have units : Binary64.signedUnits negative magnitude = 0 * unitsPerOne :=
        Place.at.inj (Option.some.inj (found.trans zero.symm))
      rw [units, Int.zero_mul]
    · intro zero
      refine ⟨.at 0, congrArg (some ∘ Place.at) zero, ?_⟩
      rw [place?, Int.zero_mul]

/-- An integer that equals a binary64 number is representable, and so in range. -/
theorem convertible_of_equals_float {value : Binary64}
    (same : (Number.float value).equals right = true) : right.Convertible := by
  cases right with
  | float => exact True.intro
  | int whole =>
    obtain ⟨place, found, scaled⟩ := equals_iff.mp same
    cases scaled
    cases value with
    | nan => cases found
    | infinite negative => cases negative <;> cases found
    | finite negative magnitude =>
      have units : Binary64.signedUnits negative magnitude = whole * unitsPerOne :=
        Place.at.inj (Option.some.inj found)
      have magnitudes : magnitude.units = whole.natAbs * unitsPerOne := by
        rw [← natAbs_signedUnits negative, units, Int.natAbs_mul, Int.natAbs_natCast]
      have unchanged := nearestUnits_mul_of_representable magnitude.representable Nat.one_pos
      have below : nearestUnits (magnitude.units * 1) 1 < unitsCeiling := by
        rw [unchanged]
        exact magnitude.representable.1
      rw [Nat.mul_one, magnitudes, nearestUnits_ones_lt_iff Nat.one_pos, Nat.mul_one] at below
      exact below

/-! ## Operations -/

/-- What a sum, a difference and a product share: exact on integers, rounded otherwise. -/
def combine (whole : Int → Int → Int) (operation : Binary64 → Binary64 → Binary64) :
    Number → Number → Except NumberError Number
  | .int left, .int right => .ok (.int (whole left right))
  | left, right => rounded operation left right

theorem add_eq_combine (left right : Number) :
    left.add right = combine (· + ·) Binary64.add left right := by
  cases left <;> cases right <;> rfl

theorem sub_eq_combine (left right : Number) :
    left.sub right = combine (· - ·) Binary64.sub left right := by
  cases left <;> cases right <;> rfl

theorem mul_eq_combine (left right : Number) :
    left.mul right = combine (· * ·) Binary64.mul left right := by
  cases left <;> cases right <;> rfl

theorem toBinary64_of_convertible {number : Number} (convertible : number.Convertible) :
    ∃ near, number.toBinary64 = .ok near ∧ (number.isZero = false → near.isZero = false) := by
  cases number with
  | float value => exact ⟨value, rfl, by rw [isZero_float]; exact id⟩
  | int value =>
    obtain ⟨magnitude, near, nonzero⟩ := Binary64.ofInt_eq_finite convertible
    refine ⟨.finite (decide (value < 0)) magnitude, by rw [toBinary64, near]; rfl, ?_⟩
    intro notZero
    have valueNonzero : value ≠ 0 := by
      intro zero
      rw [isZero_int.mpr zero] at notZero
      cases notZero
    simpa [Binary64.isZero] using nonzero valueNonzero

theorem toBinary64_of_not_convertible {number : Number} (tooLarge : ¬ number.Convertible) :
    number.toBinary64 = .error .operandTooLarge := by
  cases number with
  | float => exact absurd True.intro tooLarge
  | int value =>
    have infinite := Binary64.ofInt_eq_infinite (Nat.not_lt.mp tooLarge)
    rw [toBinary64, infinite]
    rfl

theorem isZero_of_toBinary64 {number : Number} {near : Binary64} (nonzero : number.isZero = false)
    (converts : number.toBinary64 = .ok near) : near.isZero = false := by
  by_cases convertible : number.Convertible
  · obtain ⟨found, isFound, notZero⟩ := toBinary64_of_convertible convertible
    rw [Except.ok.inj (converts.symm.trans isFound)]
    exact notZero nonzero
  · rw [toBinary64_of_not_convertible convertible] at converts
    cases converts

theorem unlessInfinite_eq_ok {cause : NumberError} {value near : Binary64}
    (converted : unlessInfinite cause value = .ok near) :
    near = value ∧ ∀ negative, value ≠ .infinite negative := by
  cases value with
  | infinite negative => cases converted
  | nan => cases converted; exact ⟨rfl, nofun⟩
  | finite negative magnitude => cases converted; exact ⟨rfl, nofun⟩

theorem ofInt_of_toBinary64 {value : Int} {near : Binary64}
    (converts : (Number.int value).toBinary64 = .ok near) :
    near = Binary64.ofInt value ∧ ∀ negative, Binary64.ofInt value ≠ .infinite negative := by
  rw [toBinary64] at converts
  exact unlessInfinite_eq_ok converts

variable {whole : Int → Int → Int} {operation : Binary64 → Binary64 → Binary64}

theorem rounded_of_convertible (operation : Binary64 → Binary64 → Binary64)
    (leftConvertible : left.Convertible) (rightConvertible : right.Convertible) :
    ∃ result, rounded operation left right = .ok (.float result) := by
  obtain ⟨nearLeft, leftConverts, -⟩ := toBinary64_of_convertible leftConvertible
  obtain ⟨nearRight, rightConverts, -⟩ := toBinary64_of_convertible rightConvertible
  exact ⟨operation nearLeft nearRight, by rw [rounded, leftConverts, rightConverts]; rfl⟩

theorem rounded_of_not_convertible (tooLarge : ¬ (left.Convertible ∧ right.Convertible)) :
    rounded operation left right = .error .operandTooLarge := by
  by_cases leftConvertible : left.Convertible
  · obtain ⟨nearLeft, leftConverts, -⟩ := toBinary64_of_convertible leftConvertible
    have rightTooLarge : ¬ right.Convertible := fun convertible =>
      tooLarge ⟨leftConvertible, convertible⟩
    rw [rounded, leftConverts, toBinary64_of_not_convertible rightTooLarge]
    rfl
  · rw [rounded, toBinary64_of_not_convertible leftConvertible]
    rfl

theorem rounded_eq_ok {result : Number} (combined : rounded operation left right = .ok result) :
    ∃ nearLeft nearRight, left.toBinary64 = .ok nearLeft ∧ right.toBinary64 = .ok nearRight ∧
      result = .float (operation nearLeft nearRight) := by
  obtain ⟨nearLeft, leftConverts, combinedLeft⟩ := exists_of_bind_eq_ok combined
  obtain ⟨nearRight, rightConverts, wrapped⟩ := exists_of_bind_eq_ok combinedLeft
  exact ⟨nearLeft, nearRight, leftConverts, rightConverts, (Except.ok.inj wrapped).symm⟩

theorem combine_cases (left right : Number) :
    (∃ dividend divisor, left = .int dividend ∧ right = .int divisor) ∨
      (combine whole operation left right = rounded operation left right ∧
        (Compatible left right ↔ left.Convertible ∧ right.Convertible)) := by
  cases left with
  | float => exact .inr ⟨rfl, Iff.rfl⟩
  | int first => cases right with
    | float => exact .inr ⟨rfl, Iff.rfl⟩
    | int second => exact .inl ⟨first, second, rfl, rfl⟩

/-- Compatible numbers have a result, which is compatible with the right one again. -/
theorem combine_of_compatible (whole : Int → Int → Int)
    (operation : Binary64 → Binary64 → Binary64) (compatible : Compatible left right) :
    ∃ result, combine whole operation left right = .ok result ∧ Compatible result right := by
  rcases combine_cases left right with ⟨first, second, rfl, rfl⟩ | ⟨isRounded, both⟩
  · exact ⟨.int (whole first second), rfl, True.intro⟩
  · obtain ⟨leftConvertible, rightConvertible⟩ := both.mp compatible
    obtain ⟨result, found⟩ := rounded_of_convertible operation leftConvertible rightConvertible
    exact ⟨.float result, isRounded.trans found, .of_convertible True.intro rightConvertible⟩

theorem combine_of_not_compatible (whole : Int → Int → Int)
    (operation : Binary64 → Binary64 → Binary64) (incompatible : ¬ Compatible left right) :
    combine whole operation left right = .error .operandTooLarge := by
  rcases combine_cases left right with ⟨first, second, rfl, rfl⟩ | ⟨isRounded, both⟩
  · exact absurd True.intro incompatible
  · exact isRounded.trans (rounded_of_not_convertible (incompatible ∘ both.mpr))

/-! ## Quotients -/

def roundedQuotient (dividend divisor : Number) : Except NumberError Number := do
  let left ← dividend.toBinary64
  let right ← divisor.toBinary64
  if right.isZero then throw .divisionByZero
  return .float (left.div right)

theorem div_cases (dividend divisor : Number) :
    (∃ whole other, dividend = .int whole ∧ divisor = .int other) ∨
      (dividend.div divisor = roundedQuotient dividend divisor ∧
        (Divisible dividend divisor ↔ dividend.Convertible ∧ divisor.Convertible)) := by
  cases dividend with
  | float => exact .inr ⟨rfl, Iff.rfl⟩
  | int whole => cases divisor with
    | float => exact .inr ⟨rfl, Iff.rfl⟩
    | int other => exact .inl ⟨whole, other, rfl, rfl⟩

theorem div_int (whole : Int) {other : Int} (nonzero : (Number.int other).isZero = false) :
    other ≠ 0 ∧ (Number.int whole).div (.int other) =
      (unlessInfinite .quotientTooLarge (Binary64.ofQuotient whole other)).map .float := by
  have divisorNonzero : other ≠ 0 := by
    intro zero
    rw [isZero_int.mpr zero] at nonzero
    cases nonzero
  exact ⟨divisorNonzero, by rw [div, if_neg divisorNonzero]⟩

theorem div_of_divisible {dividend divisor : Number} (nonzero : divisor.isZero = false)
    (divisible : Divisible dividend divisor) :
    ∃ quotient, dividend.div divisor = .ok (.float quotient) := by
  rcases div_cases dividend divisor with ⟨whole, other, rfl, rfl⟩ | ⟨isRounded, both⟩
  · obtain ⟨divisorNonzero, divided⟩ := div_int whole nonzero
    obtain ⟨negative, magnitude, near⟩ := Binary64.ofQuotient_eq_finite divisorNonzero divisible
    exact ⟨.finite negative magnitude, by rw [divided, near]; rfl⟩
  · obtain ⟨dividendConvertible, divisorConvertible⟩ := both.mp divisible
    obtain ⟨nearDividend, dividendConverts, -⟩ := toBinary64_of_convertible dividendConvertible
    obtain ⟨nearDivisor, divisorConverts, notZero⟩ := toBinary64_of_convertible divisorConvertible
    refine ⟨nearDividend.div nearDivisor, isRounded.trans ?_⟩
    rw [roundedQuotient, dividendConverts, divisorConverts]
    simp [notZero nonzero, bind, Except.bind, pure, Except.pure]

theorem div_of_not_divisible {dividend divisor : Number} (nonzero : divisor.isZero = false)
    (tooLarge : ¬ Divisible dividend divisor) :
    ∃ cause, dividend.div divisor = .error cause ∧ cause.IsOverflow := by
  rcases div_cases dividend divisor with ⟨whole, other, rfl, rfl⟩ | ⟨isRounded, both⟩
  · obtain ⟨divisorNonzero, divided⟩ := div_int whole nonzero
    obtain ⟨negative, near⟩ :=
      Binary64.ofQuotient_eq_infinite divisorNonzero (Nat.not_lt.mp tooLarge)
    exact ⟨.quotientTooLarge, by rw [divided, near]; rfl, .inr rfl⟩
  · refine ⟨.operandTooLarge, isRounded.trans ?_, .inl rfl⟩
    by_cases dividendConvertible : dividend.Convertible
    · have divisorTooLarge : ¬ divisor.Convertible := fun convertible =>
        tooLarge (both.mpr ⟨dividendConvertible, convertible⟩)
      obtain ⟨nearDividend, dividendConverts, -⟩ := toBinary64_of_convertible dividendConvertible
      rw [roundedQuotient, dividendConverts, toBinary64_of_not_convertible divisorTooLarge]
      rfl
    · rw [roundedQuotient, toBinary64_of_not_convertible dividendConvertible]
      rfl

theorem Divisible.of_convertible {dividend divisor : Number} (nonzero : divisor.isZero = false)
    (dividendConvertible : dividend.Convertible) (divisorConvertible : divisor.Convertible) :
    Divisible dividend divisor := by
  rcases div_cases dividend divisor with ⟨whole, other, rfl, rfl⟩ | ⟨-, both⟩
  · have positive := Int.natAbs_pos.mpr (div_int whole nonzero).1
    exact Nat.lt_of_lt_of_le dividendConvertible (Nat.le_mul_of_pos_right _ positive)
  · exact both.mpr ⟨dividendConvertible, divisorConvertible⟩

theorem div_int_eq_ok {whole other : Int} {quotient : Number}
    (divided : (Number.int whole).div (.int other) = .ok quotient) :
    other ≠ 0 ∧ quotient = .float (Binary64.ofQuotient whole other) ∧
      ∀ negative, Binary64.ofQuotient whole other ≠ .infinite negative := by
  rw [div] at divided
  split at divided
  · cases divided
  · next nonzero =>
    cases near : unlessInfinite .quotientTooLarge (Binary64.ofQuotient whole other) with
    | error =>
      rw [near] at divided
      cases divided
    | ok value =>
      obtain ⟨isQuotient, finite⟩ := unlessInfinite_eq_ok near
      rw [near, isQuotient] at divided
      exact ⟨nonzero, (Except.ok.inj divided).symm, finite⟩

/-- The quotient of two integers is rounded once, any other is that of the nearest numbers. -/
theorem div_eq_ok {dividend divisor quotient : Number}
    (divided : dividend.div divisor = .ok quotient) :
    (∃ whole other, dividend = .int whole ∧ divisor = .int other ∧
        quotient = .float (Binary64.ofQuotient whole other)) ∨
      ∃ left right, dividend.toBinary64 = .ok left ∧ divisor.toBinary64 = .ok right ∧
        quotient = .float (left.div right) := by
  rcases div_cases dividend divisor with ⟨whole, other, rfl, rfl⟩ | ⟨isRounded, -⟩
  · exact .inl ⟨whole, other, rfl, rfl, (div_int_eq_ok divided).2.1⟩
  · rw [isRounded, roundedQuotient] at divided
    obtain ⟨left, leftConverts, dividedLeft⟩ := exists_of_bind_eq_ok divided
    obtain ⟨right, rightConverts, checked⟩ := exists_of_bind_eq_ok dividedLeft
    cases zero : right.isZero with
    | true =>
      rw [zero, if_pos rfl] at checked
      cases checked
    | false =>
      rw [zero] at checked
      exact .inr ⟨left, right, leftConverts, rightConverts, (Except.ok.inj checked).symm⟩

theorem div_eq_float {dividend divisor quotient : Number}
    (divided : dividend.div divisor = .ok quotient) : ∃ value, quotient = .float value := by
  rcases div_eq_ok divided with ⟨whole, other, -, -, isFloat⟩ | ⟨left, right, -, -, isFloat⟩
  · exact ⟨_, isFloat⟩
  · exact ⟨_, isFloat⟩

theorem sub_float_eq_float {value : Binary64} {other result : Number}
    (subtracted : (Number.float value).sub other = .ok result) :
    ∃ value, result = .float value := by
  rw [sub_eq_combine, combine] at subtracted
  · obtain ⟨left, right, -, -, isFloat⟩ := rounded_eq_ok subtracted
    exact ⟨_, isFloat⟩
  · intro first second isInteger
    cases isInteger

end Number

end Progressions
