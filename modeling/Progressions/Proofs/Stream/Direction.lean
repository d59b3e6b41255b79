import Progressions.Proofs.Interpretation.Agreement
import Progressions.Proofs.Number.Direction
import Progressions.Proofs.Stream.Moves

/-!
# The direction of a stream

A value is compared with the bound in the direction of the step: above it if the step is at least
zero, or one for a ratio, and below it otherwise.  The values themselves are led in that direction
if they are differences apart, or ratios apart and positive, and in the other one if they are
negative and ratios apart.

Rounding moves no value to the other side of what the step was applied to, but it may move an
integer in front of the first rounded operation; so a move starts at the `operand`.
-/

set_option autoImplicit false

namespace Progressions

namespace Number

variable {negative : Bool} {number : Number} {near : Binary64}

def HasSign (negative : Bool) (number : Number) : Prop :=
  if negative then number.less (.int 0) = true else number.greater (.int 0) = true

instance (negative : Bool) : DecidablePred (HasSign negative) := fun number =>
  inferInstanceAs (Decidable (if negative then number.less (.int 0) = true
    else number.greater (.int 0) = true))

theorem HasSign.decide_neg {whole : Int} (hasSign : HasSign negative (.int whole)) :
    decide (whole < 0) = negative := by
  cases negative with
  | true =>
    have below := (less_iff rfl rfl).mp hasSign
    rw [ExtendedRat.ofRat_lt_iff, Int.cast_lt] at below
    exact decide_eq_true below
  | false =>
    have above := (greater_iff rfl rfl).mp hasSign
    rw [ExtendedRat.ofRat_lt_iff, Int.cast_lt] at above
    exact decide_eq_false (Int.not_lt.mpr (Int.le_of_lt above))

theorem HasSign.bears_float (hasSign : HasSign negative (.float near)) : near.Bears negative := by
  cases near with
  | nan => exact .nan
  | infinite sign =>
    cases negative <;> cases sign
    · exact .infinite
    · cases hasSign
    · cases hasSign
    · exact .infinite
  | finite sign magnitude =>
    have here := Binary64.value?_finite sign magnitude
    have zero : (Number.int 0).value? = some (.ofRat (0 : Int)) := rfl
    have size : (0 : ℚ) ≤ (magnitude.units : ℚ) / unitsPerOne :=
      div_nonneg (Nat.cast_nonneg _) (Nat.cast_nonneg _)
    rw [Binary64.signed_div] at here
    cases negative <;> cases sign
    · exact .finite magnitude
    · have above := (greater_iff here zero).mp hasSign
      rw [ExtendedRat.ofRat_lt_iff, Int.cast_zero] at above
      exact absurd above (not_lt.mpr (neg_nonpos.mpr size))
    · have below := (less_iff here zero).mp hasSign
      rw [ExtendedRat.ofRat_lt_iff, Int.cast_zero] at below
      exact absurd below (not_lt.mpr size)
    · exact .finite magnitude

theorem HasSign.bears (hasSign : HasSign negative number)
    (converts : number.toBinary64 = .ok near) : near.Bears negative := by
  cases number with
  | int whole =>
    rw [(ofInt_of_toBinary64 converts).1, ← hasSign.decide_neg]
    exact .ofInt whole
  | float value =>
    rw [← Except.ok.inj converts]
    exact hasSign.bears_float

theorem points_of_toBinary64 (converts : number.toBinary64 = .ok near) :
    near.Points (number.atLeast (.int 0)) := by
  intro place isPlace
  have zero : (Number.int 0).value? = some (.ofRat (0 : Int)) := rfl
  have zeroValue : Binary64.IsValue ((0 : Int) : ℚ) := Binary64.isValue_int (Nat.zero_le _)
  cases number with
  | int whole =>
    have approximates := Binary64.approximates_ofInt whole
    rw [(ofInt_of_toBinary64 converts).1] at isPlace
    cases rises : (Number.int whole).atLeast (.int 0) with
    | true =>
      have reached : ((0 : Int) : ℚ) ≤ whole := Int.cast_le.mpr (atLeast_int.mp rises)
      have ahead := approximates.le_value zeroValue reached isPlace
      rw [Int.cast_zero] at ahead
      exact ahead
    | false =>
      have below : ¬ 0 ≤ whole := mt atLeast_int.mpr (Bool.eq_false_iff.mp rises)
      have reached : (whole : ℚ) ≤ ((0 : Int) : ℚ) :=
        Int.cast_le.mpr (Int.le_of_lt (Int.not_le.mp below))
      have behind := approximates.value_le zeroValue reached isPlace
      rw [Int.cast_zero] at behind
      exact behind
  | float value =>
    rw [← Except.ok.inj converts] at isPlace
    have atLeast := atLeast_iff isPlace zero
    rw [Int.cast_zero] at atLeast
    cases rises : (Number.float value).atLeast (.int 0) with
    | true => exact atLeast.mp rises
    | false => exact (not_le.mp (mt atLeast.mpr (Bool.eq_false_iff.mp rises))).le

end Number

namespace Progression

variable {progression : Progression} {start current moved bound : Number} {negative : Bool}

/-! ## One move -/

theorem heads_of_arithmetic (arithmetic : progression.pattern = .arithmetic)
    (moves : progression.next current = .ok moved) :
    Number.Heads progression.rises (progression.operand current) moved := by
  have rises : progression.rises = progression.step.atLeast (.int 0) := by
    simp only [Progression.rises, pivot, arithmetic]
  rw [rises]
  rcases next_eq_ok moves with
    ⟨first, second, rfl, stepped, unrounded, rfl⟩ | ⟨left, right, operated, -, converts, rfl⟩
  · rw [unrounded, stepped, arithmetic]
    refine .of_le rfl rfl ?_
    rw [ExtendedRat.ofRat_le_iff, ExtendedRat.ofRat_le_iff, Int.cast_le, Int.cast_le]
    change if _ then first ≤ first + second else first + second ≤ first
    cases rising : (Number.int second).atLeast (.int 0) with
    | true =>
      have ahead := Number.atLeast_int.mp rising
      simp only [if_true]
      omega
    | false =>
      have behind : ¬ 0 ≤ second := mt Number.atLeast_int.mpr (Bool.eq_false_iff.mp rising)
      simp only [Bool.false_eq_true, if_false]
      omega
  · rw [operated, arithmetic]
    exact Binary64.add_heads left (Number.points_of_toBinary64 converts)

def IsScale (step : Number) : Prop := ∃ factor : Binary64, step = .float factor ∧ factor.Bears false

/-- Every way of rounding the value leaves it the sign. -/
def Keeps (negative : Bool) (value : Number) : Prop :=
  ∀ near, value.toBinary64 = .ok near → near.Bears negative

/-- A ratio leads its way from a positive value, and the other way from a negative one. -/
theorem heads_of_geometric (geometric : progression.pattern = .geometric)
    (isScale : IsScale progression.step) (keeps : Keeps negative current)
    (moves : progression.next current = .ok moved) :
    Number.Heads (progression.rises != negative) (progression.operand current) moved := by
  obtain ⟨factor, stepped, scales⟩ := isScale
  rcases next_eq_ok moves with
    ⟨first, second, -, isWhole, -⟩ | ⟨left, right, operated, leftConverts, converts, rfl⟩
  · rw [stepped] at isWhole
    cases isWhole
  · rw [stepped] at converts
    rw [← Except.ok.inj converts, operated, geometric]
    refine Binary64.mul_heads (keeps left leftConverts) scales ?_
    simp only [Progression.rises, pivot, geometric, stepped]

theorem keeps_of_moved (geometric : progression.pattern = .geometric)
    (isScale : IsScale progression.step) (keeps : Keeps negative current)
    (moves : progression.next current = .ok moved) : Keeps negative moved := by
  obtain ⟨factor, stepped, scales⟩ := isScale
  rcases next_eq_ok moves with
    ⟨first, second, -, isWhole, -⟩ | ⟨left, right, -, leftConverts, converts, rfl⟩
  · rw [stepped] at isWhole
    cases isWhole
  · intro near isNear
    rw [stepped] at converts
    rw [← Except.ok.inj isNear, ← Except.ok.inj converts, geometric, ← Bool.bne_false negative]
    exact (keeps left leftConverts).mul scales

theorem keeps_of_term (geometric : progression.pattern = .geometric)
    (isScale : IsScale progression.step) (keeps : Keeps negative start) {terms : Nat}
    (reached : progression.term start terms = .ok current) : Keeps negative current := by
  induction terms generalizing current with
  | zero =>
    rw [← Except.ok.inj reached]
    exact keeps
  | succ terms inductionHypothesis =>
    rw [term] at reached
    obtain ⟨previous, earlier, moves⟩ := exists_of_bind_eq_ok reached
    exact keeps_of_moved geometric isScale (inductionHypothesis earlier) moves

/-- What a move up and a move down are compared for, if values go the way of the step, and if they
go the other way. -/
theorem passes_of_heads
    (heads : Number.Heads (progression.rises != negative) start moved) :
    (moved.greater start = true →
        progression.passes moved bound =
          if negative then moved.less bound else moved.greater bound) ∧
      (moved.less start = true →
        progression.passes moved bound =
          if negative then moved.greater bound else moved.less bound) := by
  unfold Number.Heads at heads
  cases rises : progression.rises <;> cases negative <;>
    simp only [rises, passes, Bool.bne_false, Bool.bne_true, Bool.not_true, Bool.not_false, if_true,
      Bool.false_eq_true, if_false] at heads ⊢ <;>
    simp [heads]

/-! ## Texts -/

theorem isScale_of_ratio {first second step : Number} (firstSign : first.HasSign negative)
    (secondSign : second.HasSign negative)
    (linked : Pattern.ratio first second = .ok (some step)) : IsScale step := by
  rcases Number.div_eq_ok (Pattern.ratio_eq_some linked) with
    ⟨dividend, divisor, rfl, rfl, isQuotient⟩ |
    ⟨left, right, leftConverts, rightConverts, isQuotient⟩
  · have scales := Binary64.Bears.ofQuotient dividend divisor
    rw [secondSign.decide_neg, firstSign.decide_neg, bne_self_eq_false] at scales
    exact ⟨_, isQuotient, scales⟩
  · have scales := (secondSign.bears leftConverts).div (firstSign.bears rightConverts)
    rw [bne_self_eq_false] at scales
    exact ⟨_, isQuotient, scales⟩

theorem isScale_of_commonStep {numbers : List Number} {step : Number}
    (several : 2 ≤ numbers.length) (signs : ∀ number ∈ numbers, number.HasSign negative)
    (common : Pattern.commonStep Pattern.ratio numbers = .ok (some step)) : IsScale step := by
  match numbers with
  | [] | [_] => simp at several
  | first :: second :: rest =>
    exact isScale_of_ratio (signs first (by simp)) (signs second (by simp))
      (Pattern.commonStep_eq_some common).1

end Progression

namespace Sequence

variable {source : String} {sequence : Sequence} {progression : Progression}
  {bound current moved : Number} {negative : Bool}

theorem isScale_of_ofText (built : ofText source = .ok sequence)
    (goesOn : sequence.progression = some progression)
    (geometric : progression.pattern = .geometric)
    (signs : ∀ number ∈ sequence.numbers, number.HasSign negative) :
    Progression.IsScale progression.step := by
  obtain ⟨enough, ⟨arithmetic, -⟩ | ⟨-, -, common⟩⟩ := classified_of_ofText built goesOn
  · rw [arithmetic] at geometric
    cases geometric
  · exact Progression.isScale_of_commonStep (by omega) signs common

/-- The comparison of a value with the bound goes the way of the move from the start to it: beyond
the bound is above it behind a move up and below it behind a move down, or the other way round. -/
def ComparesAlong (sequence : Sequence) (mirrored : Bool) (bound start moved : Number) : Prop :=
  (moved.greater start = true →
      sequence.exceedsBound moved =
        .ok (if mirrored then moved.less bound else moved.greater bound)) ∧
    (moved.less start = true →
      sequence.exceedsBound moved =
        .ok (if mirrored then moved.greater bound else moved.less bound))

theorem comparesAlong_of_heads {start : Number} (goesOn : sequence.progression = some progression)
    (limited : progression.bound = some bound)
    (heads : Number.Heads (progression.rises != negative) start moved) :
    sequence.ComparesAlong negative bound start moved := by
  have compared : sequence.exceedsBound moved = .ok (progression.passes moved bound) := by
    simp only [exceedsBound, goesOn, limited]
  obtain ⟨upward, downward⟩ := Progression.passes_of_heads heads
  rw [ComparesAlong, compared]
  exact ⟨fun up => congrArg _ (upward up), fun down => congrArg _ (downward down)⟩

/-- Values are compared with the bound along every move of an arithmetic sequence, and of a
geometric one between positive numbers; between negative ones the comparison is the other way round.
The move starts at the value itself, unless that is an integer which has to be rounded first, as no
term behind the last number has to be. -/
theorem exceedsBound_along_moves (built : ofText source = .ok sequence)
    (goesOn : sequence.progression = some progression) (limited : progression.bound = some bound)
    (moves : sequence.nextValue (some current) = .ok moved) :
    (∀ terms, 0 < terms → progression.term sequence.last terms = .ok current →
        progression.operand current = current) ∧
      (∀ whole : Int, current = .int whole → whole.natAbs ≤ 2 ^ 53 →
        (progression.operand current).equals current = true) ∧
      (progression.pattern = .arithmetic →
        sequence.ComparesAlong false bound (progression.operand current) moved) ∧
      (progression.pattern = .geometric → ∀ negative,
        (∀ number ∈ sequence.numbers, number.HasSign negative) →
          current.HasSign negative ∨
              (∃ terms, progression.term sequence.last terms = .ok current) →
            sequence.ComparesAlong negative bound (progression.operand current) moved) := by
  have next : progression.next current = .ok moved := by
    rw [nextValue_eq goesOn] at moves
    exact mapError_eq_ok_iff.mp moves
  refine ⟨fun terms behind reached => Progression.operand_of_term behind reached, ?_, ?_, ?_⟩
  · rintro whole rfl short
    exact Progression.operand_equals short
  · intro arithmetic
    have heads := Progression.heads_of_arithmetic arithmetic next
    rw [← Bool.bne_false progression.rises] at heads
    exact comparesAlong_of_heads goesOn limited heads
  · intro geometric negative signs origin
    have isScale := isScale_of_ofText built goesOn geometric signs
    have keeps : Progression.Keeps negative current := by
      rcases origin with hasSign | ⟨terms, reached⟩
      · exact fun _ converts => hasSign.bears converts
      · have lastSign := signs sequence.last (List.getLast_mem sequence.nonempty)
        exact Progression.keeps_of_term geometric isScale
          (fun _ converts => lastSign.bears converts) reached
    exact comparesAlong_of_heads goesOn limited
      (Progression.heads_of_geometric geometric isScale keeps next)

def doublings : Sequence :=
  ⟨[-1, -2, -4].map .int,
    some ⟨.geometric, .float (Binary64.ofInt 2), some (.int (-100))⟩, List.cons_ne_nil _ _⟩

def roundedDown : Sequence :=
  ⟨[.float (Binary64.ofInt 9007199254740992), .float (Binary64.ofInt 9007199254740992),
      .int 9007199254740993],
    some ⟨.arithmetic, .float (Binary64.ofInt 0), some (.int 0)⟩, List.cons_ne_nil _ _⟩

theorem exceedsBound_along_doublings :
    ofText "-1,-2,-4,...,-100" = .ok doublings ∧
      doublings.nextValue (some (.int (-4))) = .ok (.float (Binary64.ofInt (-8))) ∧
      (∀ number ∈ doublings.numbers, number.HasSign true) ∧
      doublings.ComparesAlong true (.int (-100))
        ((⟨.geometric, .float (Binary64.ofInt 2), some (.int (-100))⟩ : Progression).operand
          (.int (-4))) (.float (Binary64.ofInt (-8))) := by
  have built : ofText "-1,-2,-4,...,-100" = .ok doublings := by decide +kernel
  have moves : doublings.nextValue (some (.int (-4))) = .ok (.float (Binary64.ofInt (-8))) := by
    decide +kernel
  have signs : ∀ number ∈ doublings.numbers, number.HasSign true := by decide +kernel
  obtain ⟨-, -, -, geometric⟩ := exceedsBound_along_moves built rfl rfl moves
  exact ⟨built, moves, signs, geometric rfl true signs (.inr ⟨0, rfl⟩)⟩

/-- The comparison does not always follow the values: not where negative numbers go by a ratio, and
not where the last number is rounded before the step is added. -/
theorem not_exceedsBound_along_values :
    (ofText "-1,-2,-4,...,-100" = .ok doublings ∧
      (∀ number ∈ doublings.numbers, number.HasSign true) ∧
      doublings.nextValue (some doublings.last) = .ok (.float (Binary64.ofInt (-8))) ∧
      ¬ doublings.ComparesAlong false (.int (-100)) doublings.last
        (.float (Binary64.ofInt (-8)))) ∧
    ofText "9007199254740992.0,9007199254740992.0,9007199254740993,...,0" = .ok roundedDown ∧
      roundedDown.nextValue (some roundedDown.last) =
        .ok (.float (Binary64.ofInt 9007199254740992)) ∧
      ¬ roundedDown.ComparesAlong false (.int 0) roundedDown.last
        (.float (Binary64.ofInt 9007199254740992)) := by
  have falling : (Number.float (Binary64.ofInt (-8))).less doublings.last = true ∧
      doublings.exceedsBound (.float (Binary64.ofInt (-8))) = .ok true ∧
      (Number.float (Binary64.ofInt (-8))).less (.int (-100)) = false := by
    decide +kernel
  have rounded : (Number.float (Binary64.ofInt 9007199254740992)).less roundedDown.last = true ∧
      roundedDown.exceedsBound (.float (Binary64.ofInt 9007199254740992)) = .ok true ∧
      (Number.float (Binary64.ofInt 9007199254740992)).less (.int 0) = false := by
    decide +kernel
  refine ⟨⟨by decide +kernel, by decide +kernel, by decide +kernel, ?_⟩, by decide +kernel,
    by decide +kernel, ?_⟩
  · rintro ⟨-, downward⟩
    obtain ⟨less, exceeds, inside⟩ := falling
    rw [downward less, if_neg Bool.false_ne_true, inside] at exceeds
    cases exceeds
  · rintro ⟨-, downward⟩
    obtain ⟨less, exceeds, inside⟩ := rounded
    rw [downward less, if_neg Bool.false_ne_true, inside] at exceeds
    cases exceeds

end Sequence

end Progressions
