import Progressions.Proofs.Lexeme.Numeral

/-!
# Printed integers

An integer is printed as a numeral: a minus sign if it is negative, and its decimal digits.  The
numeral stands for the integer, and has as many digits as may be written.
-/

set_option autoImplicit false

namespace Progressions

namespace DigitRun

/-- The decimal digits of a natural number. -/
def ofNat (value : Nat) : DigitRun where
  text := Nat.toDigits 10 value
  nonempty := Nat.toDigits_ne_nil
  digits _ member := Nat.isDigit_of_mem_toDigits (by decide) (Nat.le_refl 10) member

theorem ofDigitChars_ofNat (value : Nat) : Nat.ofDigitChars 10 (ofNat value).text 0 = value :=
  Nat.ofDigitChars_toDigits (by decide) (Nat.le_refl 10)

end DigitRun

/-- The sign that an integer is written with. -/
def Sign.ofInt : Int → Sign
  | .ofNat _ => .absent
  | .negSucc _ => .minus

namespace Numeral

/-- The numeral that an integer is printed as. -/
def ofInt (value : Int) : Numeral := ⟨.ofInt value, .ofNat value.natAbs, none⟩

theorem value_ofInt (value : Int) : (ofInt value).value = .int value := by
  rw [Numeral.value, ofInt]
  dsimp only
  rw [DigitRun.ofDigitChars_ofNat]
  cases value <;> rfl

theorem text_ofInt (value : Int) : (ofInt value).text = (toString value).toList := by
  have digits : (ofInt value).text = (Sign.ofInt value).text ++ value.natAbs.repr.toList := by
    simp [text, ofInt, fractionText, DigitRun.ofNat, Nat.toList_repr]
  rw [digits]
  cases value with
  | ofNat magnitude => rfl
  | negSucc rest =>
    have signed : toString (Int.negSucc rest) = "-" ++ (rest + 1).repr := rfl
    rw [signed, String.toList_append]
    rfl

theorem length_whole_ofInt_le {value : Int} {limit : Nat} (positive : 0 < limit)
    (below : value.natAbs < Nat.pow 10 limit) : (ofInt value).whole.text.length ≤ limit :=
  (Nat.length_toDigits_le_iff (by decide) positive).mpr below

theorem length_whole_of_writable {value : Int} (writable : (Number.int value).writable = true) :
    (ofInt value).whole.text.length ≤ digitLimit := by
  have ceiling : Number.digitCeiling = Nat.pow 10 digitLimit := by decide +kernel
  rw [Number.writable, decide_eq_true_eq, ceiling] at writable
  exact length_whole_ofInt_le (by decide) writable

end Numeral

theorem Number.printed_int {value : Int} (writable : (Number.int value).writable = true) :
    (Number.int value).printed = .ok (toString value) := by
  rw [printed, text, if_pos writable, plain]

end Progressions
