import Progressions.Proofs.Grammar.Language
import Progressions.Proofs.Number.Operands

/-!
# The numbers of an accepted text

There is at least one number, and there are at least three in front of an ellipsis.  An integer
among them, or as the bound, is as small as the digits of its literal say, and none of them is
not-a-number.
-/

set_option autoImplicit false

namespace Progressions

namespace Number

/-- Only the integers are bounded. -/
def IntegerBelow (ceiling : Nat) : Number → Prop
  | .int value => value.natAbs < ceiling
  | .float _ => True

variable {number : Number} {ceiling : Nat}

theorem writable_of_integerBelow (below : number.IntegerBelow ceiling)
    (few : ceiling ≤ digitCeiling) : number.writable = true := by
  cases number with
  | float => rfl
  | int value =>
    rw [writable, decide_eq_true_eq]
    exact Nat.lt_of_lt_of_le below few

theorem convertible_of_integerBelow (below : number.IntegerBelow ceiling)
    (small : ceiling ≤ roundingCeiling) : number.Convertible := by
  cases number with
  | float => exact True.intro
  | int value => exact Nat.lt_of_lt_of_le below small

end Number

namespace Lexeme

theorem ofDigitChars_lt {digits : List Char}
    (isDigit : ∀ character ∈ digits, character.isDigit = true) (start : Nat) :
    Nat.ofDigitChars 10 digits start < (start + 1) * 10 ^ digits.length := by
  induction digits generalizing start with
  | nil => simp
  | cons digit digits inductionHypothesis =>
    have later := inductionHypothesis
      (fun character member => isDigit character (List.mem_cons_of_mem _ member))
      (10 * start + (digit.toNat - '0'.toNat))
    have small : digit.toNat - '0'.toNat ≤ 9 := by
      have bounds := digit_bounds (isDigit digit List.mem_cons_self)
      have zero : '0'.toNat = 48 := rfl
      omega
    rw [Nat.ofDigitChars_cons, List.length_cons, Nat.pow_succ]
    refine Nat.lt_of_lt_of_le later ?_
    rw [Nat.mul_comm (10 ^ digits.length) 10, ← Nat.mul_assoc]
    apply Nat.mul_le_mul_right
    omega

end Lexeme

/-- A numeral without a fractional part has no more digits than the limit. -/
def Numeral.Short (limit : Nat) (numeral : Numeral) : Prop :=
  numeral.fraction = none → numeral.whole.text.length ≤ limit

theorem Numeral.value_below {numeral : Numeral} {limit : Nat} (short : numeral.Short limit) :
    numeral.value.IntegerBelow (10 ^ limit) := by
  unfold Numeral.value
  cases integer : numeral.fraction with
  | some places => exact True.intro
  | none =>
    have digits := Lexeme.ofDigitChars_lt numeral.whole.digits 0
    have more : 10 ^ numeral.whole.text.length ≤ 10 ^ limit :=
      Nat.pow_le_pow_right (by decide) (short integer)
    have magnitude (value : Nat) : (numeral.sign.apply value).natAbs = value := by
      cases numeral.sign <;> simp [Sign.apply]
    simp only [Number.IntegerBelow, magnitude]
    omega

theorem Binary64.round_ne_nan (negative : Bool) (numerator denominator : Nat) :
    round negative numerator denominator ≠ .nan := by
  unfold round
  split <;> exact nofun

theorem Numeral.value_ne_nan (numeral : Numeral) : numeral.value ≠ .float .nan := by
  unfold Numeral.value
  split
  · exact nofun
  · next places _ =>
    intro isNan
    have rounded := Number.float.inj isNan
    unfold Binary64.ofDecimal at rounded
    split at rounded <;> exact Binary64.round_ne_nan _ _ _ rounded

theorem Limit.value_ne_nan (limit : Limit) : limit.value ≠ .float .nan := by
  cases limit with
  | finite numeral => exact numeral.value_ne_nan
  | infinite sign => exact nofun

namespace Sentence

section Below

variable {sentence : Sentence} {limit : Nat}
  (within : ∀ word ∈ sentence.phrase.items, word.integerDigits ≤ limit)

include within

theorem value_below {numeral : Numeral}
    (listed : ⟨.number, numeral.text⟩ ∈ sentence.phrase.items) :
    numeral.value.IntegerBelow (10 ^ limit) := by
  apply Numeral.value_below
  intro integer
  have counted := within _ listed
  rwa [Lexeme.integerDigits_numeral, if_pos integer] at counted

theorem numbers_below : ∀ number ∈ sentence.numbers, number.IntegerBelow (10 ^ limit) := by
  intro number member
  rcases List.mem_cons.mp member with rfl | member
  · exact value_below within (sentence.phrase.numbers_subset List.mem_cons_self)
  · obtain ⟨continued, present, rfl⟩ := List.mem_map.mp member
    apply value_below within
    apply sentence.phrase.numbers_subset
    apply List.mem_cons_of_mem
    refine List.mem_map.mpr ⟨continued.part, List.mem_map_of_mem present, ?_⟩
    cases continued <;> rfl

theorem bound_below : ∀ bound ∈ sentence.bound, bound.IntegerBelow (10 ^ limit) := by
  intro bound present
  obtain ⟨first, further, tail, enough⟩ := sentence
  obtain ⟨⟨separator, limited⟩, isTail, present⟩ := Option.bind_eq_some_iff.mp present
  obtain ⟨⟨between, last⟩, isLast, isValue⟩ := Option.bind_eq_some_iff.mp present
  cases isTail
  cases isLast
  cases isValue
  cases last with
  | infinite sign => exact True.intro
  | finite numeral => exact value_below within (Phrase.bound_mem rfl)

end Below

theorem number_ne_nan (sentence : Sentence) :
    ∀ number ∈ sentence.numbers, number ≠ .float .nan := by
  intro number member
  rcases List.mem_cons.mp member with rfl | member
  · exact sentence.first.value_ne_nan
  · obtain ⟨continued, -, rfl⟩ := List.mem_map.mp member
    exact continued.numeral.value_ne_nan

theorem bound_ne_nan (sentence : Sentence) :
    ∀ bound ∈ sentence.bound, bound ≠ .float .nan := by
  intro bound present
  obtain ⟨tail, -, present⟩ := Option.bind_eq_some_iff.mp present
  obtain ⟨⟨separator, limit⟩, -, isValue⟩ := Option.bind_eq_some_iff.mp present
  cases isValue
  exact limit.value_ne_nan

end Sentence

theorem Lexeme.IntegersWithin.mono {limit more : Nat} {text : List Char}
    (within : IntegersWithin limit text) (fewer : limit ≤ more) : IntegersWithin more text := by
  intro word member
  exact Nat.le_trans (within word member) fewer

namespace Specification

/-- An accepted text is a sentence, whose values its specification holds. -/
theorem sentence_of_ofText {source : String} {specification : Specification}
    (accepted : ofText source = .ok specification) :
    ∃ sentence : Sentence, sentence.text = source.toList ∧
      specification.numbers = sentence.numbers ∧
        specification.hasEllipsis = sentence.tail.isSome ∧
          specification.bound = sentence.bound := by
  have within := within_of_ofText accepted
  obtain ⟨sentence, isText⟩ := exists_sentence_of_ofText within accepted
  obtain ⟨found, foundAccepted, parts⟩ := ofText_sentence within isText
  obtain rfl := Except.ok.inj (accepted.symm.trans foundAccepted)
  exact ⟨sentence, isText, parts⟩

/-- What is known of the numbers of an accepted text. -/
structure WellCounted (specification : Specification) (ceiling : Nat) : Prop where
  nonempty : specification.numbers ≠ []
  enough : specification.hasEllipsis = true → 3 ≤ specification.numbers.length
  below : ∀ number ∈ specification.numbers, number.IntegerBelow ceiling

theorem WellCounted.several {specification : Specification} {ceiling : Nat}
    (counted : specification.WellCounted ceiling) (hasEllipsis : specification.hasEllipsis = true) :
    2 ≤ specification.numbers.length := by
  have enough := counted.enough hasEllipsis
  omega

theorem wellCounted_of_ofText {source : String} {specification : Specification} {limit : Nat}
    (within : Lexeme.IntegersWithin limit source.toList)
    (accepted : ofText source = .ok specification) :
    specification.WellCounted (10 ^ limit) := by
  obtain ⟨sentence, isText, numbers, ellipsis, -⟩ := sentence_of_ofText accepted
  refine ⟨?_, ?_, ?_⟩
  · rw [numbers]
    simp [Sentence.numbers]
  · intro hasEllipsis
    have counted := sentence.enough (by rw [← ellipsis, hasEllipsis])
    rw [numbers]
    simpa [Sentence.numbers] using counted
  · rw [numbers]
    apply Sentence.numbers_below
    rw [← sentence.words_text, isText]
    exact within

theorem bound_below_of_ofText {source : String} {specification : Specification} {limit : Nat}
    (within : Lexeme.IntegersWithin limit source.toList)
    (accepted : ofText source = .ok specification) :
    ∀ bound ∈ specification.bound, bound.IntegerBelow (10 ^ limit) := by
  obtain ⟨sentence, isText, -, -, bound⟩ := sentence_of_ofText accepted
  rw [bound]
  apply Sentence.bound_below
  rw [← sentence.words_text, isText]
  exact within

end Specification

end Progressions
