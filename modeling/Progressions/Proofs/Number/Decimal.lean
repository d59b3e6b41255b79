import Progressions.Proofs.Number.Shortest

/-!
# Decimals with an exponent

A decimal is a numeral without a plus sign and without idle zeros in front of its digits, and
optionally a power of ten behind it.  Every integer and every finite binary64 number is written as
a decimal that stands for it: what the digits and the power of ten come to is rounded back to the
number, whether it is written with an exponent or without.
-/

set_option autoImplicit false

namespace Progressions

structure Exponent where
  capital : Bool
  sign : Sign
  digits : DigitRun

namespace Exponent

def text (exponent : Exponent) : List Char :=
  (if exponent.capital then 'E' else 'e') :: exponent.sign.text ++ exponent.digits.text

def value (exponent : Exponent) : Int :=
  exponent.sign.apply (Nat.ofDigitChars 10 exponent.digits.text 0)

end Exponent

structure Decimal where
  numeral : Numeral
  exponent : Option Exponent
  noPlus : numeral.sign ≠ .plus
  /-- No zero stands in front of other digits. -/
  noZeros : numeral.whole.text = ['0'] ∨ numeral.whole.text.head? ≠ some '0'

namespace Decimal

def exponentText (decimal : Decimal) : List Char :=
  match decimal.exponent with
  | none => []
  | some exponent => exponent.text

def text (decimal : Decimal) : List Char := decimal.numeral.text ++ decimal.exponentText

def places (decimal : Decimal) : List Char :=
  match decimal.numeral.fraction with
  | none => []
  | some places => places.text

/-- An integer without a point and without an exponent, the nearest binary64 number with one. -/
def value (decimal : Decimal) : Number :=
  match decimal.exponent with
  | none => decimal.numeral.value
  | some exponent =>
    .float (Binary64.ofDecimal (decimal.numeral.sign == .minus)
      (Nat.ofDigitChars 10 (decimal.numeral.whole.text ++ decimal.places) 0)
      (exponent.value - decimal.places.length))

end Decimal

/-! ## Digits of natural numbers -/

theorem head_toDigits_ne {value : Nat} (positive : 0 < value) :
    (Nat.toDigits 10 value).head? ≠ some '0' := by
  induction value using Nat.strong_induction_on with
  | h value inductionHypothesis =>
    rcases Nat.lt_or_ge value 10 with short | long
    · rw [Nat.toDigits_of_lt_base short, List.head?_cons, Ne, Option.some.injEq,
        Nat.digitChar_eq_zero]
      exact Nat.ne_of_gt positive
    · have shorter := inductionHypothesis (value / 10) (Nat.div_lt_self positive (by decide))
        (Nat.div_pos long (by decide))
      rw [Nat.toDigits_of_base_le (by decide) long,
        List.head?_append_of_ne_nil _ Nat.toDigits_ne_nil]
      exact shorter

theorem DigitRun.noZeros_ofNat (value : Nat) :
    (ofNat value).text = ['0'] ∨ (ofNat value).text.head? ≠ some '0' := by
  rcases Nat.eq_zero_or_pos value with rfl | positive
  · exact .inl (Nat.toDigits_zero 10)
  · exact .inr (head_toDigits_ne positive)

theorem Decimal.exists_int (value : Int) :
    ∃ decimal : Decimal, decimal.text = (toString value).toList ∧ decimal.value = .int value := by
  have noPlus : (Numeral.ofInt value).sign ≠ .plus := by cases value <;> exact nofun
  refine ⟨⟨.ofInt value, none, noPlus, DigitRun.noZeros_ofNat _⟩, ?_, Numeral.value_ofInt value⟩
  exact (List.append_nil _).trans (Numeral.text_ofInt value)

/-! ## Digits of binary64 numbers -/

namespace Magnitude

variable {magnitude : Magnitude} {number : DecimalDigits} {zeros : Nat}

theorem shortest_zero (zero : magnitude.units = 0) : magnitude.shortest = ⟨['0'], 1⟩ := by
  rw [shortest, if_pos zero]

/-- The digit of zero reads back as well. -/
theorem exists_writtenAs_all (magnitude : Magnitude) :
    ∃ zeros, magnitude.WrittenAs magnitude.shortest zeros := by
  by_cases zero : magnitude.units = 0
  · refine ⟨decimalPlaces, ?_⟩
    rw [shortest_zero zero]
    constructor
    case nonempty => exact List.cons_ne_nil _ _
    case digits => exact List.all_eq_true.mp rfl
    case point => rfl
    case readsBack =>
      have noSignificand : DecimalDigits.significand ⟨['0'], 1⟩ = 0 := rfl
      rw [readsBack_iff, noSignificand, Nat.zero_mul, nearestUnits_zero, zero]
  · exact exists_writtenAs zero

theorem head_shortest_ne (nonzero : magnitude.units ≠ 0) :
    magnitude.shortest.digits.head? ≠ some '0' := by
  obtain ⟨steps, power, neighbour, isShortest⟩ := exists_shortest nonzero
  obtain ⟨_, written⟩ := exists_writtenAs nonzero
  obtain ⟨zeros, split⟩ := exists_zeros (Nat.toDigits 10 steps)
  have first := head_toDigits_ne (neighbour.steps_pos nonzero)
  have nonempty := written.nonempty
  rw [isShortest] at nonempty ⊢
  rwa [split, List.head?_append_of_ne_nil _ nonempty] at first

/-- What the digits come to in the last of their places is rounded to the magnitude. -/
theorem ofDecimal_of_writtenAs (negative : Bool) (written : magnitude.WrittenAs number zeros) :
    Binary64.ofDecimal negative number.significand (number.point - number.digits.length) =
      .finite negative magnitude := by
  have point := written.point
  have nearest := readsBack_iff.mp written.readsBack
  rcases Nat.lt_or_ge zeros decimalPlaces with fewer | more
  · obtain ⟨further, isPlaces⟩ := Nat.exists_eq_add_of_lt fewer
    have exponent : number.point - number.digits.length = -((further + 1 : Nat) : Int) := by
      omega
    rw [exponent, Binary64.ofDecimal_places negative _ (Nat.succ_pos further)]
    apply Binary64.round_of_nearestUnits
    rw [← nearest]
    apply nearestUnits_congr (Nat.pow_pos (by decide)) decimalScale_pos
    calc number.significand * unitsPerOne * decimalScale
        = number.significand * 10 ^ decimalPlaces := by
          rw [Nat.mul_assoc, ten_pow_decimalPlaces]
      _ = number.significand * 10 ^ zeros * 10 ^ (further + 1) := by
          rw [isPlaces, Nat.add_assoc, Nat.pow_add, Nat.mul_assoc]
  · obtain ⟨further, rfl⟩ := Nat.exists_eq_add_of_le more
    have exponent : number.point - number.digits.length = (further : Int) := by omega
    rw [exponent]
    change Binary64.round negative (number.significand * 10 ^ further * unitsPerOne) 1 = _
    apply Binary64.round_of_nearestUnits
    rw [← nearest]
    apply nearestUnits_congr (by decide) decimalScale_pos
    calc number.significand * 10 ^ further * unitsPerOne * decimalScale
        = number.significand * 10 ^ further * 10 ^ decimalPlaces := by
          rw [Nat.mul_assoc _ unitsPerOne, ten_pow_decimalPlaces]
      _ = number.significand * 10 ^ (decimalPlaces + further) * 1 := by
          rw [Nat.mul_one, Nat.mul_assoc, ← Nat.pow_add, Nat.add_comm]

end Magnitude

/-! ## Positional decimals -/

namespace DecimalDigits

variable {number : DecimalDigits} {whole places : DigitRun} {further : Nat}

theorem whole_of_splits (splits : number.Splits whole places further) :
    whole.text = number.positional.takeWhile Char.isDigit := by
  have stops : Lexeme.Stops Char.isDigit ('.' :: places.text) := Lexeme.stops_cons _ rfl
  rw [splits.text, Lexeme.takeWhile_append_of_stops whole.digits stops]

theorem head_positional (nonempty : number.digits ≠ []) (inside : ¬ number.point ≤ 0) :
    number.positional.head? = number.digits.head? := by
  rw [positional, if_neg inside]
  split
  · rw [List.append_assoc, List.head?_append_of_ne_nil _ nonempty]
  · have some : number.point.toNat ≠ 0 := by omega
    have front : number.digits.take number.point.toNat ≠ [] := by
      simp [nonempty, some]
    rw [List.head?_append_of_ne_nil _ front, List.head?_take, if_neg some]

end DecimalDigits

theorem Magnitude.noZeros_of_splits {magnitude : Magnitude} {whole places : DigitRun}
    {further : Nat} (splits : magnitude.shortest.Splits whole places further) :
    whole.text = ['0'] ∨ whole.text.head? ≠ some '0' := by
  have isWhole := DecimalDigits.whole_of_splits splits
  by_cases zero : magnitude.units = 0
  · rw [shortest_zero zero] at isWhole
    exact .inl isWhole
  · obtain ⟨_, written⟩ := exists_writtenAs zero
    by_cases before : magnitude.shortest.point ≤ 0
    · rw [DecimalDigits.positional, if_pos before] at isWhole
      exact .inl isWhole
    · have first := congrArg List.head? splits.text
      rw [DecimalDigits.head_positional written.nonempty before,
        List.head?_append_of_ne_nil _ whole.nonempty] at first
      rw [← first]
      exact .inr (head_shortest_ne zero)

namespace Sign

/-- The sign of a number that is written without a plus sign. -/
def ofNegative (negative : Bool) : Sign := if negative then .minus else .absent

theorem ofNegative_ne_plus (negative : Bool) : ofNegative negative ≠ .plus := by
  cases negative <;> exact nofun

theorem ofNegative_eq_minus (negative : Bool) : (ofNegative negative == .minus) = negative := by
  cases negative <;> rfl

theorem text_ofNegative (negative : Bool) :
    (ofNegative negative).text = if negative then ['-'] else [] := by
  cases negative <;> rfl

end Sign

theorem Magnitude.exists_positional (negative : Bool) (magnitude : Magnitude) :
    ∃ decimal : Decimal,
      decimal.text = (if negative then ['-'] else []) ++ magnitude.shortest.positional ∧
        decimal.value = .float (.finite negative magnitude) := by
  obtain ⟨zeros, written⟩ := magnitude.exists_writtenAs_all
  obtain ⟨whole, places, further, splits⟩ :=
    DecimalDigits.exists_splits written.nonempty written.digits
  have value := ofDecimal_of_splits negative written splits
  refine ⟨⟨⟨.ofNegative negative, whole, some places⟩, none, Sign.ofNegative_ne_plus negative,
    noZeros_of_splits splits⟩, ?_, ?_⟩
  · simp [Decimal.text, Decimal.exponentText, Numeral.text, Numeral.fractionText, splits.text,
      Sign.text_ofNegative]
  · simp [Decimal.value, Numeral.value, Sign.ofNegative_eq_minus, value]

/-! ## Decimals with an exponent -/

def DigitRun.padded (run : DigitRun) : DigitRun where
  text := if run.text.length < 2 then '0' :: run.text else run.text
  nonempty := by
    split
    · exact List.cons_ne_nil _ _
    · exact run.nonempty
  digits := by
    split
    · exact List.forall_mem_cons.mpr ⟨rfl, run.digits⟩
    · exact run.digits

theorem DigitRun.ofDigitChars_padded (run : DigitRun) :
    Nat.ofDigitChars 10 run.padded.text 0 = Nat.ofDigitChars 10 run.text 0 := by
  dsimp only [padded]
  split
  · rw [Nat.ofDigitChars_cons]
    rfl
  · rfl

def Exponent.ofInt (power : Int) : Exponent :=
  ⟨false, if power < 0 then .minus else .plus, (DigitRun.ofNat power.natAbs).padded⟩

theorem Exponent.value_ofInt (power : Int) : (ofInt power).value = power := by
  rw [value, ofInt, DigitRun.ofDigitChars_padded, DigitRun.ofDigitChars_ofNat]
  by_cases negative : power < 0
  · simp only [if_pos negative, Sign.apply]
    omega
  · simp only [if_neg negative, Sign.apply]
    omega

/-- The digits behind a point, if there are any. -/
def DigitRun.ofList? (digits : List Char)
    (isDigit : ∀ character ∈ digits, character.isDigit = true) : Option DigitRun :=
  if nonempty : digits = [] then none else some ⟨digits, nonempty, isDigit⟩

namespace DecimalDigits

variable {number : DecimalDigits} {leading : Char} {others : List Char}

theorem text_ofInt_exponent (number : DecimalDigits) :
    (Exponent.ofInt number.exponent).text =
      'e' :: (if number.exponent < 0 then '-' else '+') ::
        (if (Nat.toDigits 10 number.exponent.natAbs).length < 2 then
          '0' :: Nat.toDigits 10 number.exponent.natAbs
        else Nat.toDigits 10 number.exponent.natAbs) := by
  rw [Exponent.text, Exponent.ofInt]
  by_cases negative : number.exponent < 0
  · rw [if_pos negative, if_pos negative]
    rfl
  · rw [if_neg negative, if_neg negative]
    rfl

/-- There is a point only if further digits follow. -/
theorem scientific_cons (isDigits : number.digits = leading :: others) :
    number.scientific =
      leading :: (if others = [] then [] else '.' :: others) ++
        (Exponent.ofInt number.exponent).text := by
  rw [scientific, text_ofInt_exponent]
  cases others <;> simp [isDigits]

/-- One digit stands in front of the point. -/
theorem exists_scientific (negative : Bool) (nonempty : number.digits ≠ [])
    (digits : ∀ character ∈ number.digits, character.isDigit = true) :
    ∃ decimal : Decimal,
      decimal.text = (if negative then ['-'] else []) ++ number.scientific ∧
        decimal.value = .float (Binary64.ofDecimal negative number.significand
          (number.point - number.digits.length)) := by
  obtain ⟨leading, others, isDigits⟩ := List.exists_cons_of_ne_nil nonempty
  rw [isDigits] at digits
  obtain ⟨isDigit, laterDigits⟩ := List.forall_mem_cons.mp digits
  let whole : DigitRun := ⟨[leading], List.cons_ne_nil _ _, List.forall_mem_singleton.mpr isDigit⟩
  have noZeros : whole.text = ['0'] ∨ whole.text.head? ≠ some '0' := by
    by_cases zero : leading = '0'
    · exact .inl (congrArg ([·]) zero)
    · exact .inr (mt Option.some.inj zero)
  let decimal : Decimal :=
    ⟨⟨.ofNegative negative, whole, DigitRun.ofList? others laterDigits⟩,
      some (.ofInt number.exponent), Sign.ofNegative_ne_plus negative, noZeros⟩
  refine ⟨decimal, ?_, ?_⟩
  · rw [scientific_cons isDigits]
    by_cases single : others = [] <;>
      simp [decimal, whole, Decimal.text, Decimal.exponentText, Numeral.text, Numeral.fractionText,
        DigitRun.ofList?, Sign.text_ofNegative, single]
  · have places : decimal.places = others := by
      by_cases single : others = [] <;> simp [decimal, Decimal.places, DigitRun.ofList?, single]
    have power : number.exponent - others.length = number.point - number.digits.length := by
      simp only [exponent, isDigits, List.length_cons]
      omega
    rw [Decimal.value, places, significand, ← power, isDigits]
    simp only [decimal, whole, Exponent.value_ofInt, Sign.ofNegative_eq_minus,
      List.singleton_append]

end DecimalDigits

/-- A finite binary64 number is written as a decimal that stands for it. -/
theorem Decimal.exists_float (negative : Bool) (magnitude : Magnitude) :
    ∃ decimal : Decimal,
      decimal.text = (Binary64.finite negative magnitude).plain.toList ∧
        decimal.value = .float (.finite negative magnitude) := by
  rw [Binary64.plain, String.toList_ofList, DecimalDigits.layout]
  by_cases inside : leastPositional ≤ magnitude.shortest.exponent ∧
      magnitude.shortest.exponent < positionalEnd
  · rw [if_pos inside]
    exact magnitude.exists_positional negative
  · rw [if_neg inside]
    obtain ⟨zeros, written⟩ := magnitude.exists_writtenAs_all
    obtain ⟨decimal, isText, value⟩ :=
      DecimalDigits.exists_scientific negative written.nonempty written.digits
    refine ⟨decimal, isText, ?_⟩
    rw [value, Magnitude.ofDecimal_of_writtenAs negative written]

end Progressions
