import Progressions.Proofs.Interpretation.Respecification
import Progressions.Proofs.Number.Integers
import Progressions.Proofs.Pattern.Links
import Progressions.Proofs.Stream.Moves

/-!
# Streams of powers

Positive integers that go up by an integer ratio are geometric with exactly that ratio.  While they
stay below `2 ^ 53` nothing is rounded, and the first one beyond such a bound is rounded to a number
that is still beyond it; so the stream hands out exactly the multiples that the bound allows.
-/

set_option autoImplicit false

namespace Progressions

def powers (first ratio : Int) (length : Nat) : List Int :=
  (List.range length).map fun place => first * ratio ^ place

/-- The multiple at a place if the bound allows it: an integer where it is one of the listed
numbers, a binary64 number behind them. -/
def powerElement (first ratio bound : Int) (length place : Nat) : Option Number :=
  if first * ratio ^ place ≤ bound then
    some (if place < length then .int (first * ratio ^ place)
      else .float (Binary64.ofInt (first * ratio ^ place)))
  else
    none

/-- The specification has the integers for its numbers, and an ellipsis and the bound behind
them. -/
def Specification.Lists (specification : Specification) (wholes : List Int) (bound : Int) : Prop :=
  specification.numbers = wholes.map .int ∧ specification.hasEllipsis = true ∧
    specification.bound = some (.int bound)

section Powers

variable {first ratio bound : Int} {length : Nat}
  (positive : 1 ≤ first) (grows : 2 ≤ ratio)

include positive grows

theorem power_pos (place : Nat) : 0 < first * ratio ^ place :=
  Int.mul_pos (by omega) (Int.pow_pos (by omega))

theorem power_mono {place later : Nat} (behind : place ≤ later) :
    first * ratio ^ place ≤ first * ratio ^ later :=
  Int.mul_le_mul_of_nonneg_left (pow_le_pow_right₀ (by omega) behind) (by omega)

/-! ## The pattern -/

theorem not_isArithmetic_powers (enough : 3 ≤ length) :
    ¬ Pattern.IsArithmetic (powers first ratio length) := by
  rintro ⟨difference, evenly⟩
  have counted : (powers first ratio length).length = length := by simp [powers]
  have near : (powers first ratio length)[1] - (powers first ratio length)[0] = difference :=
    evenly.getElem 0 (by omega)
  have far : (powers first ratio length)[2] - (powers first ratio length)[1] = difference :=
    evenly.getElem 1 (by omega)
  simp only [powers, List.getElem_map, List.getElem_range] at near far
  have grown : 0 < first * ((ratio - 1) * (ratio - 1)) :=
    Int.mul_pos (by omega) (Int.mul_pos (by omega) (by omega))
  have apart : first * ((ratio - 1) * (ratio - 1)) =
      first * ratio ^ 2 - first * ratio ^ 1 - (first * ratio ^ 1 - first * ratio ^ 0) := by
    ring
  rw [apart, far, near, Int.sub_self] at grown
  exact Int.lt_irrefl 0 grown

theorem ratio_powers (below : ratio.natAbs < roundingCeiling) (place : Nat) :
    Pattern.ratio (.int (first * ratio ^ place)) (.int (first * ratio ^ (place + 1))) =
      .ok (some (.float (Binary64.ofInt ratio))) := by
  have factor := power_pos positive grows place
  have nonzero : (Number.int (first * ratio ^ place)).isZero = false :=
    Bool.eq_false_iff.mpr (mt Number.isZero_int.mp (Int.ne_of_gt factor))
  obtain ⟨magnitude, isFinite, -⟩ := Binary64.ofInt_eq_finite below
  obtain ⟨-, divided⟩ := Number.div_int (first * ratio ^ place * ratio) nonzero
  rw [Binary64.ofQuotient_mul factor (by omega), isFinite] at divided
  rw [Int.pow_succ, ← Int.mul_assoc, Pattern.ratio, nonzero, divided, isFinite]
  rfl

theorem commonStep_powers (enough : 2 ≤ length) (below : ratio.natAbs < roundingCeiling) :
    Pattern.commonStep Pattern.ratio ((powers first ratio length).map .int) =
      .ok (some (.float (Binary64.ofInt ratio))) := by
  obtain ⟨further, rfl⟩ := Nat.exists_eq_add_of_le' enough
  have comparable : (Number.float (Binary64.ofInt ratio)) ≠ .float .nan := by
    obtain ⟨magnitude, isFinite, -⟩ := Binary64.ofInt_eq_finite below
    rw [isFinite]
    exact nofun
  have chain : ((powers first ratio (further + 2)).map Number.int).IsChain
      (Pattern.Linked Pattern.ratio (.float (Binary64.ofInt ratio))) := by
    rw [List.isChain_map, powers, List.isChain_map, List.isChain_range]
    intro place _
    exact ⟨_, ratio_powers positive grows below place, Number.equals_self_iff.mpr comparable⟩
  rw [powers, List.range_succ_eq_map, List.range_succ_eq_map] at chain ⊢
  exact Pattern.commonStep_of_chain (ratio_powers positive grows below 0) chain

theorem classify_powers (enough : 3 ≤ length) (below : ratio.natAbs < roundingCeiling)
    (location : Option Location) :
    classify ((powers first ratio length).map .int) location =
      .ok ⟨.geometric, .float (Binary64.ofInt ratio)⟩ := by
  have several : 2 ≤ (powers first ratio length).length := by simp [powers]; omega
  have severalNumbers : 2 ≤ ((powers first ratio length).map Number.int).length := by
    rwa [List.length_map]
  have noDifference := (Pattern.commonDifference_eq_none_iff several).mpr
    (not_isArithmetic_powers positive grows enough)
  rw [Pattern.classify_of_no_difference severalNumbers noDifference,
    commonStep_powers positive grows (by omega) below]

end Powers

/-! ## The progression -/

def Progression.byRatio (ratio bound : Int) : Progression :=
  ⟨.geometric, .float (Binary64.ofInt ratio), some (.int bound)⟩

namespace Progression

variable {first ratio bound whole : Int} {base : Nat} (positive : 1 ≤ first) (grows : 2 ≤ ratio)
  (below : bound < 2 ^ 53)

include grows in
theorem byRatio_rises : (byRatio ratio bound).rises = true := by
  have approximates := Binary64.approximates_ofInt ratio
  obtain ⟨place, isPlace⟩ := approximates.exists_place
  have one : Binary64.IsValue ((1 : Int) : ℚ) := Binary64.isValue_int (by decide)
  have reached : ((1 : Int) : ℚ) ≤ ratio := Int.cast_le.mpr (by omega)
  exact (Number.atLeast_iff isPlace rfl).mpr (approximates.le_value one reached isPlace)

include grows in
theorem isBeyond_eq_greater (moved : Number) :
    (byRatio ratio bound).isBeyond moved = moved.greater (.int bound) := by
  change (byRatio ratio bound).passes moved (.int bound) = _
  rw [passes, byRatio_rises grows, if_pos rfl]

include grows below in
theorem isBeyond_byRatio (nonneg : 0 ≤ bound) (natural : 0 ≤ whole) :
    (byRatio ratio bound).isBeyond (.float (Binary64.ofInt whole)) = decide (bound < whole) := by
  have approximates := Binary64.approximates_ofInt whole
  obtain ⟨place, isPlace⟩ := approximates.exists_place
  rw [isBeyond_eq_greater grows, Bool.eq_iff_iff, Number.greater_iff isPlace rfl, decide_eq_true_eq]
  constructor
  · intro beyond
    refine Int.not_le.mp fun inside => ?_
    have exact := approximates.value_eq (Binary64.isValue_int (by omega))
    rw [Option.some.inj (isPlace.symm.trans exact), ExtendedRat.ofRat_lt_iff, Int.cast_lt] at beyond
    omega
  · intro beyond
    -- The next integer is a binary64 number still, and rounding does not lead below it.
    have next : Binary64.IsValue ((bound + 1 : Int) : ℚ) := Binary64.isValue_int (by omega)
    have reached : ((bound + 1 : Int) : ℚ) ≤ whole := Int.cast_le.mpr (by omega)
    refine lt_of_lt_of_le ?_ (approximates.le_value next reached isPlace)
    rw [ExtendedRat.ofRat_lt_iff, Int.cast_lt]
    omega

include positive grows below

theorem ratio_short (place : Nat) (inside : first * ratio ^ (place + 1) ≤ bound) :
    ratio.natAbs ≤ 2 ^ 53 := by
  have factor := power_pos positive grows place
  have size : ratio ≤ first * ratio ^ place * ratio := le_mul_of_one_le_left (by omega) (by omega)
  rw [Int.pow_succ, ← Int.mul_assoc] at inside
  omega

/-- A power within the bound leads to the next one, whether or not that is within the bound. -/
theorem next_power {current : Number} {place : Nat} (short : ratio.natAbs ≤ 2 ^ 53)
    (isPower : current = .int (first * ratio ^ place) ∨
      current = .float (Binary64.ofInt (first * ratio ^ place)))
    (inside : first * ratio ^ place ≤ bound) :
    (byRatio ratio bound).next current =
      .ok (.float (Binary64.ofInt (first * ratio ^ (place + 1)))) := by
  have factor := power_pos positive grows place
  have factorShort : (first * ratio ^ place).natAbs ≤ 2 ^ 53 := by omega
  have ceiling : 2 ^ 53 < roundingCeiling := by decide +kernel
  have product := Binary64.mul_ofInt factor (by omega : 0 < ratio) factorShort short
  rw [Int.mul_assoc, ← Int.pow_succ] at product
  have stepped : (byRatio ratio bound).step = .float (Binary64.ofInt ratio) := rfl
  have operation : (byRatio ratio bound).pattern.operation = Binary64.mul := rfl
  rcases isPower with rfl | rfl
  · rw [next_int stepped (Nat.lt_of_le_of_lt factorShort ceiling), operation, product]
  · rw [next_float (rfl : (byRatio ratio bound).step.toBinary64 = .ok (Binary64.ofInt ratio)),
      operation, product]

theorem term_power (short : ratio.natAbs ≤ 2 ^ 53) (terms : Nat)
    (inside : first * ratio ^ (base + terms) ≤ bound) :
    (byRatio ratio bound).term (.int (first * ratio ^ base)) (terms + 1) =
      .ok (.float (Binary64.ofInt (first * ratio ^ (base + terms + 1)))) := by
  induction terms with
  | zero =>
    have start : (byRatio ratio bound).term (.int (first * ratio ^ base)) 0 =
        .ok (.int (first * ratio ^ base)) := rfl
    rw [term_succ_of_ok start]
    exact next_power positive grows below short (.inl rfl) inside
  | succ terms inductionHypothesis =>
    have earlier := power_mono positive grows (by omega : base + terms ≤ base + (terms + 1))
    rw [term_succ_of_ok (inductionHypothesis (by omega))]
    exact next_power positive grows below short (.inr rfl) inside

theorem endsWithin_power (short : ratio.natAbs ≤ 2 ^ 53)
    (started : first * ratio ^ base ≤ bound) (terms : Nat) :
    (byRatio ratio bound).endsWithin (.int (first * ratio ^ base)) (terms + 1) =
      decide (bound < first * ratio ^ (base + terms + 1)) := by
  have start := power_pos positive grows base
  have beyond (place : Nat) := isBeyond_byRatio grows below (by omega : 0 ≤ bound)
    (Int.le_of_lt (power_pos positive grows place))
  induction terms with
  | zero =>
    rw [endsWithin_succ_of_ok (term_power positive grows below short 0 started), beyond]
    rfl
  | succ terms inductionHypothesis =>
    have later := power_mono positive grows
      (by omega : base + terms + 1 ≤ base + (terms + 1) + 1)
    by_cases inside : first * ratio ^ (base + terms + 1) ≤ bound
    · rw [endsWithin_succ_of_ok (term_power positive grows below short (terms + 1) inside),
        inductionHypothesis, decide_eq_false (Int.not_lt.mpr inside), Bool.false_or, beyond]
    · have ended := inductionHypothesis.trans (decide_eq_true (Int.not_le.mp inside))
      rw [endsWithin_mono ended 1]
      exact (decide_eq_true (by omega)).symm

end Progression

/-! ## Texts -/

/-- Integers that can be written can be listed in front of an ellipsis and a bound. -/
theorem Specification.exists_lists {wholes : List Int} {bound : Int} (enough : 3 ≤ wholes.length)
    (writable : ∀ whole ∈ wholes, (Number.int whole).writable = true)
    (boundWritable : (Number.int bound).writable = true) :
    ∃ text specification, specificationText (wholes.map .int) (some (.int bound)) = .ok text ∧
      ofText text = .ok specification ∧ specification.Lists wholes bound := by
  match wholes with
  | [] => simp at enough
  | first :: others =>
    have writes : Limit.Writes (some (.finite (.ofInt bound))) (some (.int bound)) :=
      .finite boundWritable
    obtain ⟨text, written, isText⟩ := specificationText_ofInts enough writable writes
    obtain ⟨specification, accepted, numbers, hasEllipsis, limited⟩ :=
      ofText_sentence (within_ofInts enough writable writes isText) isText
    rw [Sentence.numbers_ofInts] at numbers
    rw [Sentence.bound_ofInts, writes.value] at limited
    exact ⟨text, specification, written, accepted, numbers, hasEllipsis, limited⟩

namespace Sequence

variable {first ratio bound : Int} {length base : Nat} {sequence : Sequence}

theorem ofText_powers {source : String} {specification : Specification} (positive : 1 ≤ first)
    (grows : 2 ≤ ratio) (enough : 3 ≤ length) (inside : ratio.natAbs < roundingCeiling)
    (accepted : Specification.ofText source = .ok specification)
    (lists : specification.Lists (powers first ratio length) bound) :
    ∃ sequence, ofText source = .ok sequence ∧
      sequence.numbers = (powers first ratio length).map .int ∧
      sequence.progression = some (.byRatio ratio bound) := by
  obtain ⟨numbers, hasEllipsis, limited⟩ := lists
  have counted : specification.numbers.length = length := by simp [numbers, powers]
  have nonempty : specification.numbers ≠ [] := List.ne_nil_of_length_pos (by omega)
  have classified := classify_powers positive grows enough inside specification.ellipsisLocation
  rw [← numbers] at classified
  have built := ofSpecification_classified nonempty hasEllipsis classified
  rw [limited] at built
  exact ⟨_, (ofText_accepted accepted).trans built, numbers, rfl⟩

theorem last_powers (numbers : sequence.numbers = (powers first ratio (base + 1)).map .int) :
    sequence.last = .int (first * ratio ^ base) := by
  refine last_int numbers ?_
  rw [powers, List.range_succ, List.map_append]
  exact List.getLast?_concat

theorem reference_powers (positive : 1 ≤ first) (grows : 2 ≤ ratio) (below : bound < 2 ^ 53)
    (short : ratio.natAbs ≤ 2 ^ 53) (started : first * ratio ^ base ≤ bound)
    (goesOn : sequence.progression = some (.byRatio ratio bound))
    (numbers : sequence.numbers = (powers first ratio (base + 1)).map .int) (place : Nat) :
    sequence.reference place = .ok (powerElement first ratio bound (base + 1) place) := by
  have counted : sequence.numbers.length = base + 1 := by simp [numbers, powers]
  rcases Nat.lt_or_ge place (base + 1) with early | past
  · have inside := power_mono positive grows (Nat.le_of_lt_succ early)
    rw [reference_of_lt (by omega), powerElement, if_pos (by omega), if_pos early]
    simp [numbers, powers]
  · obtain ⟨terms, rfl⟩ := Nat.exists_eq_add_of_le past
    have referred := reference_term goesOn terms
    rw [counted, last_powers numbers,
      Progression.endsWithin_power positive grows below short started] at referred
    have shifted : base + 1 + terms = base + terms + 1 := by omega
    rw [shifted] at referred ⊢
    by_cases inside : first * ratio ^ (base + terms + 1) ≤ bound
    · have earlier := power_mono positive grows (by omega : base + terms ≤ base + terms + 1)
      have within : first * ratio ^ (base + terms) ≤ bound := by omega
      have reached := Progression.term_power positive grows below short terms within
      rw [decide_eq_false (Int.not_lt.mpr inside), if_neg Bool.false_ne_true, reached] at referred
      rw [referred, powerElement, if_pos inside, if_neg (by omega)]
      rfl
    · rw [decide_eq_true (Int.not_le.mp inside), if_pos rfl] at referred
      rw [referred, powerElement, if_neg inside]

/-- Positive integers that go up by an integer ratio can be listed in front of an ellipsis and an
integer bound below `2 ^ 53`, and however they are, they are read as a geometric sequence with
exactly that ratio.  It hands out the multiples that the bound allows, each of them exactly and one
after the other, and then nothing for ever. -/
theorem outcomes_powers (positive : 1 ≤ first) (grows : 2 ≤ ratio) (enough : 3 ≤ length)
    (reached : first * ratio ^ (length - 1) ≤ bound) (below : bound < 2 ^ 53) :
    (∃ text specification,
      specificationText ((powers first ratio length).map .int) (some (.int bound)) = .ok text ∧
        Specification.ofText text = .ok specification ∧
        specification.Lists (powers first ratio length) bound) ∧
    (∀ source specification, Specification.ofText source = .ok specification →
      specification.Lists (powers first ratio length) bound →
        ∃ sequence step, ofText source = .ok sequence ∧
          sequence.numbers = (powers first ratio length).map .int ∧
          sequence.progression = some ⟨.geometric, step, some (.int bound)⟩ ∧
          step.equals (.int ratio) = true ∧
          ∀ count, sequence.outcomes count = (List.range count).map fun place =>
            .ok (powerElement first ratio bound length place)) ∧
    ∀ place, first * ratio ^ place < first * ratio ^ (place + 1) ∧
      ∀ value ∈ powerElement first ratio bound length place,
        value.equals (.int (first * ratio ^ place)) = true := by
  obtain ⟨base, rfl⟩ : ∃ base, length = base + 1 := ⟨length - 1, by omega⟩
  rw [Nat.add_sub_cancel] at reached
  have short : ratio.natAbs ≤ 2 ^ 53 := by
    refine Progression.ratio_short positive grows below (base - 1) ?_
    rwa [Nat.sub_add_cancel (by omega)]
  refine ⟨?_, ?_, ?_⟩
  · have ceiling : 2 ^ 53 ≤ Number.digitCeiling := by decide +kernel
    have start := power_pos positive grows base
    have writable (whole : Int) (natural : 0 ≤ whole) (inside : whole ≤ bound) :
        (Number.int whole).writable = true :=
      Number.writable_of_integerBelow (show whole.natAbs < 2 ^ 53 by omega) ceiling
    apply Specification.exists_lists (by simp [powers]; omega)
    · intro whole member
      obtain ⟨place, listed, rfl⟩ := List.mem_map.mp member
      have inside := power_mono positive grows (Nat.le_of_lt_succ (List.mem_range.mp listed))
      exact writable _ (Int.le_of_lt (power_pos positive grows place)) (by omega)
    · exact writable bound (by omega) (Int.le_refl bound)
  · intro source specification accepted lists
    have ceiling : 2 ^ 53 < roundingCeiling := by decide +kernel
    obtain ⟨sequence, built, numbers, goesOn⟩ := ofText_powers positive grows enough
      (Nat.lt_of_le_of_lt short ceiling) accepted lists
    refine ⟨sequence, _, built, numbers, goesOn, Binary64.equals_ofInt_short short, ?_⟩
    intro count
    rw [outcomes_eq_reference]
    refine List.map_congr_left fun place _ => ?_
    rw [reference_powers positive grows below short reached goesOn numbers]
    rfl
  · intro place
    have factor := power_pos positive grows place
    constructor
    · rw [Int.pow_succ, ← Int.mul_assoc]
      exact lt_mul_of_one_lt_right factor (by omega)
    · intro value present
      by_cases inside : first * ratio ^ place ≤ bound
      · rw [powerElement, if_pos inside, Option.mem_some_iff] at present
        rw [← present]
        split
        · exact Number.equals_self_iff.mpr nofun
        · exact Binary64.equals_ofInt_short (by omega)
      · rw [powerElement, if_neg inside] at present
        cases present

/-- Powers of three up to the last integer below `2 ^ 53`; the next one is not a binary64 number. -/
theorem outcomes_powers_of_three :
    (1 : Int) ≤ 1 ∧ (2 : Int) ≤ 3 ∧ (1 : Int) * 3 ^ (3 - 1) ≤ 9007199254740991 ∧
      (9007199254740991 : Int) < 2 ^ 53 ∧
      ∃ sequence, ofText "1,3,9,...,9007199254740991" = .ok sequence ∧
        ∀ count, sequence.outcomes count = (List.range count).map fun place =>
          .ok (powerElement 1 3 9007199254740991 3 place) := by
  have reached : (1 : Int) * 3 ^ (3 - 1) ≤ 9007199254740991 := by decide
  have below : (9007199254740991 : Int) < 2 ^ 53 := by decide
  obtain ⟨⟨text, specification, written, accepted, lists⟩, streams, -⟩ :=
    outcomes_powers (by decide : (1 : Int) ≤ 1) (by decide : (2 : Int) ≤ 3) (Nat.le_refl 3) reached
      below
  have isText : specificationText ((powers 1 3 3).map .int) (some (.int 9007199254740991)) =
      .ok "1,3,9,...,9007199254740991" := by
    decide +kernel
  obtain ⟨sequence, step, built, -, -, -, outcomes⟩ := streams text specification accepted lists
  rw [Except.ok.inj (written.symm.trans isText)] at built
  exact ⟨by decide, by decide, reached, below, sequence, built, outcomes⟩

end Sequence

end Progressions
