import Progressions.Proofs.Number.RelativeError
import Progressions.Proofs.Stream.Direction
import Progressions.Proofs.Stream.Extent
import Progressions.Proofs.Stream.Scripts

/-!
# The end of an arithmetic stream

The terms of an arithmetic progression go one way, so inside a finite bound only finitely many of
them differ.  What does not end therefore comes to two equal terms in a row, and there it stays: a
step that is lost to rounding once is lost for ever.  Integers are never rounded, and their streams
end.
-/

set_option autoImplicit false

namespace Progressions

/-! ## Numbers at a place -/

namespace Number

variable {left right start moved bound : Number} {leftUnits rightUnits units limit : Int}
  {near : Binary64}

theorem greater_at (isLeft : left.place? = some (.at leftUnits))
    (isRight : right.place? = some (.at rightUnits)) :
    left.greater right = true ↔ rightUnits < leftUnits := by
  simp [greater, compare?, isLeft, isRight, Place.compare, compare_gt_iff_gt]

theorem less_at (isLeft : left.place? = some (.at leftUnits))
    (isRight : right.place? = some (.at rightUnits)) :
    left.less right = true ↔ leftUnits < rightUnits := by
  simp [less, compare?, isLeft, isRight, Place.compare, compare_lt_iff_lt]

theorem le_of_not_greater (isLeft : left.place? = some (.at leftUnits))
    (isRight : right.place? = some (.at rightUnits)) (notGreater : left.greater right = false) :
    leftUnits ≤ rightUnits := by
  rw [← Bool.not_eq_true, greater_at isLeft isRight] at notGreater
  exact Int.not_lt.mp notGreater

theorem le_of_not_less (isLeft : left.place? = some (.at leftUnits))
    (isRight : right.place? = some (.at rightUnits)) (notLess : left.less right = false) :
    rightUnits ≤ leftUnits := by
  rw [← Bool.not_eq_true, less_at isLeft isRight] at notLess
  exact Int.not_lt.mp notLess

theorem isZero_at (isPlace : left.place? = some (.at leftUnits)) :
    left.isZero = true ↔ leftUnits = 0 := by
  have zero : (Number.int 0).place? = some (.at (0 * unitsPerOne)) := rfl
  rw [Int.zero_mul] at zero
  rw [isZero, equals_iff]
  constructor
  · rintro ⟨place, found, isZero⟩
    exact Place.at.inj (Option.some.inj (isPlace.symm.trans (found.trans (isZero.symm.trans zero))))
  · rintro rfl
    exact ⟨_, isPlace, zero⟩

theorem units_of_heads {rising : Bool} (isStart : start.place? = some (.at leftUnits))
    (isMoved : moved.place? = some (.at rightUnits)) (heads : Heads rising start moved) :
    if rising then leftUnits ≤ rightUnits else rightUnits ≤ leftUnits := by
  cases rising with
  | true => exact le_of_not_less isMoved isStart heads
  | false => exact le_of_not_greater isMoved isStart heads

theorem units_of_inside {rising : Bool} (isMoved : moved.place? = some (.at units))
    (isBound : bound.place? = some (.at limit))
    (inside : (if rising then moved.greater bound else moved.less bound) = false) :
    if rising then units ≤ limit else limit ≤ units := by
  cases rising with
  | true => exact le_of_not_greater isMoved isBound inside
  | false => exact le_of_not_less isMoved isBound inside

theorem exists_at {rising : Bool} (comparable : moved ≠ .float .nan)
    (isStart : start.place? = some (.at units)) (isBound : bound.place? = some (.at limit))
    (heads : Heads rising start moved)
    (inside : (if rising then moved.greater bound else moved.less bound) = false) :
    ∃ reached, moved.place? = some (.at reached) := by
  cases moved with
  | int whole => exact ⟨_, rfl⟩
  | float value => cases value with
    | nan => exact absurd rfl comparable
    | finite negative magnitude => exact ⟨_, rfl⟩
    | infinite negative =>
      have place : (Number.float (.infinite negative)).place? =
          some (if negative then .leftEnd else .rightEnd) := rfl
      cases rising <;> cases negative <;>
        simp [Heads, less, greater, compare?, place, isStart, isBound, Place.compare]
          at heads inside

theorem exists_at_or_infinite (comparable : left ≠ .float .nan) :
    (∃ units, left.place? = some (.at units)) ∨ ∃ negative, left = .float (.infinite negative) := by
  cases left with
  | int whole => exact .inl ⟨_, rfl⟩
  | float value => cases value with
    | nan => exact absurd rfl comparable
    | infinite negative => exact .inr ⟨negative, rfl⟩
    | finite negative magnitude => exact .inl ⟨_, rfl⟩

theorem exists_at_of_value {value : ℚ} (isValue : left.value? = some (.ofRat value)) :
    ∃ units, left.place? = some (.at units) := by
  rw [value?_eq_map, Option.map_eq_some_iff] at isValue
  obtain ⟨place, found, isPlace⟩ := isValue
  cases place with
  | leftEnd => exact absurd isPlace.symm (ExtendedRat.ofRat_ne_bot value)
  | «at» units => exact ⟨units, found⟩
  | rightEnd => exact absurd isPlace.symm (ExtendedRat.ofRat_ne_top value)

theorem finite_of_toBinary64 (isPlace : left.place? = some (.at units))
    (converts : left.toBinary64 = .ok near) :
    ∃ negative magnitude, near = .finite negative magnitude := by
  cases left with
  | int whole =>
    obtain ⟨isNear, notInfinite⟩ := ofInt_of_toBinary64 converts
    rw [isNear]
    obtain ⟨place, found⟩ := (Binary64.approximates_ofInt whole).exists_place
    cases rounded : Binary64.ofInt whole with
    | nan =>
      rw [rounded] at found
      cases found
    | infinite negative => exact absurd rounded (notInfinite negative)
    | finite negative magnitude => exact ⟨negative, magnitude, rfl⟩
  | float value =>
    rw [← Except.ok.inj converts]
    cases value with
    | nan => cases isPlace
    | infinite negative => cases negative <;> cases isPlace
    | finite negative magnitude => exact ⟨negative, magnitude, rfl⟩

end Number

/-- Integers that go one way and stay inside a limit do not move for ever. -/
theorem exists_stall {units : Nat → Int} {rising : Bool} {limit : Int}
    (oneWay : ∀ terms, if rising then units terms ≤ units (terms + 1)
      else units (terms + 1) ≤ units terms)
    (inside : ∀ terms, if rising then units terms ≤ limit else limit ≤ units terms) :
    ∃ terms, units (terms + 1) = units terms := by
  -- Otherwise every move leads at least one unit further, and in the end past the limit.
  by_contra moving
  have moves (terms : Nat) : units (terms + 1) ≠ units terms := fun same => moving ⟨terms, same⟩
  have apart (terms : Nat) : if rising then units 0 + terms ≤ units terms
      else units terms ≤ units 0 - terms := by
    induction terms with
    | zero => cases rising <;> simp
    | succ terms inductionHypothesis =>
      have further := oneWay terms
      have changed := moves terms
      cases rising <;> simp only [Bool.false_eq_true, if_false, if_true] at * <;> omega
  have far := apart ((units 0 - limit).natAbs + 1)
  have near := inside ((units 0 - limit).natAbs + 1)
  cases rising <;> simp only [Bool.false_eq_true, if_false, if_true] at * <;> omega

theorem Binary64.add_congr {negative otherNegative stepNegative : Bool}
    {magnitude other step : Magnitude}
    (same : signedUnits negative magnitude = signedUnits otherNegative other)
    (nonzero : signedUnits negative magnitude + signedUnits stepNegative step ≠ 0) :
    add (.finite negative magnitude) (.finite stepNegative step) =
      add (.finite otherNegative other) (.finite stepNegative step) := by
  have otherNonzero := nonzero
  rw [same] at otherNonzero
  simp only [add]
  rw [if_neg nonzero, if_neg otherNonzero, same]

/-- What a step that is not zero does not lead away, it never does. -/
theorem Binary64.add_of_stalled {negative stepNegative : Bool} {magnitude step : Magnitude}
    (nonzero : step.units ≠ 0)
    (stalled : (Number.float (add (.finite negative magnitude)
      (.finite stepNegative step))).place? = some (.at (signedUnits negative magnitude))) :
    add (add (.finite negative magnitude) (.finite stepNegative step)) (.finite stepNegative step) =
      add (.finite negative magnitude) (.finite stepNegative step) := by
  have stepUnits : signedUnits stepNegative step ≠ 0 := mt (Number.signedUnits_eq_zero _).mp nonzero
  have total : signedUnits negative magnitude + signedUnits stepNegative step ≠ 0 := by
    intro zero
    have isSum := approximates_add (value?_finite negative magnitude)
      (value?_finite stepNegative step)
    rw [← signedUnits_cast, ← signedUnits_cast, ← add_div, ← Int.cast_add, zero, Int.cast_zero,
      zero_div] at isSum
    have isZero : IsValue 0 := by exact_mod_cast isValue_int (Nat.zero_le _ : (0 : Int).natAbs ≤ _)
    have here := isSum.value_eq isZero
    rw [Number.value?_eq_map, stalled] at here
    have noUnits : (signedUnits negative magnitude : ℚ) / unitsPerOne = 0 :=
      ExtendedRat.ofRat_inj.mp (Option.some.inj here)
    rw [div_eq_zero_iff, or_iff_left Number.unitsPerOne_pos_rat.ne', Int.cast_eq_zero] at noUnits
    omega
  obtain ⟨sumNegative, sum, isSum⟩ := Number.finite_of_toBinary64 stalled rfl
  rw [isSum] at stalled
  have same : signedUnits sumNegative sum = signedUnits negative magnitude :=
    Number.Place.at.inj (Option.some.inj stalled)
  rw [isSum, add_congr same (by rw [same]; exact total), isSum]

namespace Progression

variable {progression : Progression} {start current moved value bound : Number}
  {units stepUnits limit : Int}

/-! ## Moves inside the bound -/

theorem passes_of_isBeyond (limited : progression.bound = some bound)
    (inside : progression.isBeyond moved = false) :
    (if progression.rises then moved.greater bound else moved.less bound) = false := by
  rw [isBeyond, limited] at inside
  exact inside

theorem moved_ne_nan (arithmetic : progression.pattern = .arithmetic)
    (isPlace : current.place? = some (.at units))
    (isStep : progression.step.place? = some (.at stepUnits))
    (moves : progression.next current = .ok moved) : moved ≠ .float .nan := by
  rcases next_eq_ok moves with
    ⟨first, second, -, -, -, rfl⟩ | ⟨left, right, -, leftConverts, rightConverts, rfl⟩
  · exact nofun
  · obtain ⟨negative, magnitude, rfl⟩ := Number.finite_of_toBinary64 isPlace leftConverts
    obtain ⟨stepNegative, step, rfl⟩ := Number.finite_of_toBinary64 isStep rightConverts
    obtain ⟨place, found⟩ := (Binary64.approximates_add (Binary64.value?_finite negative magnitude)
      (Binary64.value?_finite stepNegative step)).exists_place
    rw [arithmetic, Pattern.operation_arithmetic]
    intro isNan
    rw [isNan] at found
    cases found

theorem operand_at (isPlace : current.place? = some (.at units))
    (moves : progression.next current = .ok moved) :
    ∃ rounded, (progression.operand current).place? = some (.at rounded) := by
  rcases next_eq_ok moves with
    ⟨first, second, rfl, -, unrounded, -⟩ | ⟨left, right, operated, leftConverts, -, -⟩
  · rw [unrounded]
    exact ⟨_, isPlace⟩
  · obtain ⟨negative, magnitude, rfl⟩ := Number.finite_of_toBinary64 isPlace leftConverts
    rw [operated]
    exact ⟨_, rfl⟩

theorem moved_at (arithmetic : progression.pattern = .arithmetic)
    (limited : progression.bound = some bound) (isBound : bound.place? = some (.at limit))
    (isStep : progression.step.place? = some (.at stepUnits))
    (isPlace : current.place? = some (.at units)) (moves : progression.next current = .ok moved)
    (inside : progression.isBeyond moved = false) :
    ∃ reached, moved.place? = some (.at reached) := by
  obtain ⟨rounded, isOperand⟩ := operand_at isPlace moves
  exact Number.exists_at (moved_ne_nan arithmetic isPlace isStep moves) isOperand isBound
    (heads_of_arithmetic arithmetic moves) (passes_of_isBeyond limited inside)

theorem next_of_stalled (arithmetic : progression.pattern = .arithmetic)
    (isStep : progression.step.place? = some (.at stepUnits))
    (nonzero : progression.step.isZero = false)
    (unrounded : progression.operand current = current)
    (isPlace : current.place? = some (.at units)) (moves : progression.next current = .ok moved)
    (stalled : moved.place? = some (.at units)) :
    ∃ value, moved = .float value ∧ progression.next (.float value) = .ok (.float value) := by
  rcases next_eq_ok moves with
    ⟨first, second, rfl, stepped, -, rfl⟩ | ⟨left, right, operated, leftConverts, converts, rfl⟩
  · rw [arithmetic] at stalled
    have same : (first + second) * (unitsPerOne : Int) = first * unitsPerOne :=
      Number.Place.at.inj (Option.some.inj (stalled.trans isPlace.symm))
    have zero : second * (unitsPerOne : Int) = 0 := by
      rw [Int.add_mul] at same
      omega
    rw [stepped, Bool.eq_false_iff] at nonzero
    exact absurd ((Number.isZero_at rfl).mpr zero) nonzero
  · obtain ⟨negative, magnitude, rfl⟩ := Number.finite_of_toBinary64 isPlace leftConverts
    obtain ⟨stepNegative, step, rfl⟩ := Number.finite_of_toBinary64 isStep converts
    rw [arithmetic, Pattern.operation_arithmetic] at stalled ⊢
    refine ⟨_, rfl, ?_⟩
    have here : units = Binary64.signedUnits negative magnitude := by
      rw [← unrounded, operated] at isPlace
      exact (Number.Place.at.inj (Option.some.inj isPlace)).symm
    rw [here] at stalled
    have stepNonzero := Number.isZero_of_toBinary64 nonzero converts
    simp only [Binary64.isZero, beq_eq_false_iff_ne, ne_eq] at stepNonzero
    rw [next_float converts, arithmetic, Pattern.operation_arithmetic,
      Binary64.add_of_stalled stepNonzero stalled]

/-! ## Runs inside the bound -/

theorem term_at (arithmetic : progression.pattern = .arithmetic)
    (limited : progression.bound = some bound) (isBound : bound.place? = some (.at limit))
    (isStep : progression.step.place? = some (.at stepUnits))
    (isStart : start.place? = some (.at units))
    (inside : ∀ terms value, progression.term start (terms + 1) = .ok value →
      progression.isBeyond value = false)
    (terms : Nat) (reached : progression.term start terms = .ok value) :
    ∃ here, value.place? = some (.at here) := by
  induction terms generalizing value with
  | zero =>
    rw [← Except.ok.inj reached]
    exact ⟨_, isStart⟩
  | succ terms inductionHypothesis =>
    have within := inside terms value reached
    rw [term] at reached
    obtain ⟨previous, earlier, moves⟩ := exists_of_bind_eq_ok reached
    obtain ⟨here, isHere⟩ := inductionHypothesis earlier
    exact moved_at arithmetic limited isBound isStep isHere moves within

/-- A run that never gets beyond a finite bound gets to a binary64 number and stays there. -/
theorem exists_fixed (arithmetic : progression.pattern = .arithmetic)
    (limited : progression.bound = some bound) (isBound : bound.place? = some (.at limit))
    (isStep : progression.step.place? = some (.at stepUnits))
    (nonzero : progression.step.isZero = false) (isStart : start.place? = some (.at units))
    (defined : ∀ terms, ∃ value, progression.term start terms = .ok value)
    (inside : ∀ terms value, progression.term start (terms + 1) = .ok value →
      progression.isBeyond value = false) :
    ∃ terms value, value ≠ .nan ∧ progression.term start (terms + 1) = .ok (.float value) ∧
      progression.next (.float value) = .ok (.float value) := by
  choose values reached using defined
  have finite (terms : Nat) : ∃ here, (values terms).place? = some (.at here) :=
    term_at arithmetic limited isBound isStep isStart inside terms (reached terms)
  choose places isPlace using finite
  have moves (terms : Nat) : progression.next (values terms) = .ok (values (terms + 1)) := by
    rw [← term_succ_of_ok (reached terms), reached]
  -- Only the last number may have to be rounded, so places are compared from the first term on.
  have unrounded (terms : Nat) :
      progression.operand (values (terms + 1)) = values (terms + 1) :=
    operand_of_moved (moves terms)
  have oneWay (terms : Nat) : if progression.rises then places (terms + 1) ≤ places (terms + 2)
      else places (terms + 2) ≤ places (terms + 1) := by
    have heads := heads_of_arithmetic arithmetic (moves (terms + 1))
    rw [unrounded] at heads
    exact Number.units_of_heads (isPlace (terms + 1)) (isPlace (terms + 2)) heads
  have within (terms : Nat) : if progression.rises then places (terms + 1) ≤ limit
      else limit ≤ places (terms + 1) :=
    Number.units_of_inside (isPlace (terms + 1)) isBound
      (passes_of_isBeyond limited (inside terms _ (reached (terms + 1))))
  obtain ⟨terms, stalled⟩ := exists_stall oneWay within
  have stays : (values (terms + 2)).place? = some (.at (places (terms + 1))) := by
    rw [isPlace (terms + 2), stalled]
  obtain ⟨value, isFloat, fixed⟩ := next_of_stalled arithmetic isStep nonzero (unrounded terms)
    (isPlace (terms + 1)) (moves (terms + 1)) stays
  rw [isFloat] at stays
  have comparable : value ≠ .nan := by
    rintro rfl
    cases stays
  refine ⟨terms + 1, value, comparable, ?_, fixed⟩
  rw [← isFloat]
  exact reached (terms + 2)

theorem term_of_fixed (fixed : progression.next value = .ok value) (count : Nat) :
    progression.term value count = .ok value := by
  induction count with
  | zero => rfl
  | succ count inductionHypothesis => rw [term_succ_of_ok inductionHypothesis, fixed]

theorem endsWithin_of_fixed (fixed : progression.next value = .ok value)
    (inside : progression.isBeyond value = false) (count : Nat) :
    progression.endsWithin value count = false := by
  induction count with
  | zero => rfl
  | succ count inductionHypothesis =>
    rw [endsWithin_succ_of_ok (term_of_fixed fixed (count + 1)), inductionHypothesis, inside]
    rfl

/-! ## Infinite steps -/

theorem isBeyond_of_infinite_step {negative : Bool}
    (arithmetic : progression.pattern = .arithmetic)
    (limited : progression.bound = some bound) (isBound : bound.place? = some (.at limit))
    (isStep : progression.step = .float (.infinite negative))
    (start : (∃ units, current.place? = some (.at units)) ∨ current = .float (.infinite negative))
    (moves : progression.next current = .ok moved) : progression.isBeyond moved = true := by
  have far : moved = .float (.infinite negative) := by
    rcases next_eq_ok moves with
      ⟨first, second, -, isWhole, -⟩ | ⟨left, right, -, leftConverts, converts, rfl⟩
    · rw [isStep] at isWhole
      cases isWhole
    · rw [isStep] at converts
      rw [← Except.ok.inj converts, arithmetic, Pattern.operation_arithmetic]
      rcases start with ⟨units, isPlace⟩ | rfl
      · obtain ⟨sign, magnitude, rfl⟩ := Number.finite_of_toBinary64 isPlace leftConverts
        rfl
      · rw [← Except.ok.inj leftConverts, Binary64.add, if_pos rfl]
  have rises : progression.rises = !negative := by
    simp only [Progression.rises, pivot, arithmetic, isStep]
    cases negative <;> decide +kernel
  have place : (Number.float (.infinite negative)).place? =
      some (if negative then .leftEnd else .rightEnd) := rfl
  rw [isBeyond, limited, far]
  simp only [passes, rises]
  cases negative <;> simp [Number.less, Number.greater, Number.compare?, place, isBound,
    Number.Place.compare]

end Progression

namespace Pattern

theorem step_of_infinite_last {numbers : List Number} {step : Number} {negative : Bool}
    (several : 2 ≤ numbers.length) (nonempty : numbers ≠ [])
    (common : commonStep difference numbers = .ok (some step)) (comparable : step ≠ .float .nan)
    (isLast : numbers.getLast nonempty = .float (.infinite negative)) :
    step = .float (.infinite negative) := by
  obtain ⟨before, found, linked, same⟩ := commonStep_last several nonempty common
  have subtracted := difference_eq_some linked
  rw [isLast, Number.sub_eq_combine] at subtracted
  obtain ⟨left, right, leftConverts, -, isFloat⟩ := Number.rounded_eq_ok subtracted
  rw [← Except.ok.inj leftConverts] at isFloat
  have candidates : found = .float .nan ∨ found = .float (.infinite negative) := by
    rw [isFloat]
    cases right with
    | nan => exact .inl rfl
    | finite => exact .inr rfl
    | infinite sign => cases negative <;> cases sign <;> decide
  rcases candidates with isNan | isInfinite
  · rw [isNan] at same
    rcases same with isStep | same
    · exact absurd isStep.symm comparable
    · cases same
  · rw [isInfinite] at same
    rcases same with isStep | same
    · exact isStep.symm
    · exact Number.right_eq_of_equals_infinite same

theorem compatible_or_tooLarge {numbers : List Number} {step : Number}
    (several : 2 ≤ numbers.length) (nonempty : numbers ≠ [])
    (common : commonStep difference numbers = .ok (some step)) :
    Number.Compatible (numbers.getLast nonempty) step ∨
      ∃ (whole : Int) (near : Binary64), numbers.getLast nonempty = .int whole ∧
        roundingCeiling ≤ whole.natAbs ∧ step = .float near := by
  obtain ⟨before, found, linked, same⟩ := commonStep_last several nonempty common
  have subtracted := difference_eq_some linked
  cases last : numbers.getLast nonempty with
  | float value =>
    rw [last] at subtracted
    obtain ⟨result, rfl⟩ := Number.sub_float_eq_float subtracted
    exact .inl (.of_convertible True.intro (convertible_of_same same))
  | int whole => cases step with
    | int => exact .inl True.intro
    | float near =>
      rcases Nat.lt_or_ge whole.natAbs roundingCeiling with small | tooLarge
      · exact .inl (.of_convertible small True.intro)
      · exact .inr ⟨whole, near, rfl, tooLarge, rfl⟩

end Pattern

namespace Sequence

open Binary64 (normalCeiling)

variable {sequence : Sequence} {progression : Progression} {value bound step : Number}
  {count terms : Nat} {state : Stream.State} {outcome : Except StreamError (Option Number)}

/-! ## Exhausted and settled streams -/

/-- A fresh iterator is exhausted after a number of moves. -/
def Exhausts (sequence : Sequence) : Prop :=
  ∃ count, ((Iterator.ofSequence sequence).pulls count).2.exhausted = true

/-- All moves from a number of them on have the outcome. -/
def SettlesFrom (sequence : Sequence) (count : Nat) (outcome : Except StreamError (Option Number)) :
    Prop :=
  ∀ further, sequence.outcomes (count + further) =
    sequence.outcomes count ++ List.replicate further outcome

theorem settlesFrom_of_reference
    (given : ∀ further, (sequence.reference (count + further)).mapError .number = outcome) :
    sequence.SettlesFrom count outcome := by
  intro further
  rw [outcomes_add]
  congr 1
  refine List.eq_replicate_iff.mpr ⟨by rw [List.length_map, List.length_range], ?_⟩
  intro other member
  obtain ⟨place, -, rfl⟩ := List.mem_map.mp member
  exact given place

theorem reference_of_settlesFrom (settles : sequence.SettlesFrom count outcome) (further : Nat) :
    (sequence.reference (count + further)).mapError .number = outcome := by
  have given := settles (further + 1)
  rw [← Nat.add_assoc, outcomes_succ, settles further, List.replicate_succ',
    ← List.append_assoc] at given
  exact List.head_eq_of_cons_eq (List.append_inj_right' given rfl)

theorem reference_of_exhausted (stands : Stands sequence count state)
    (exhausted : state.exhausted = true) : sequence.reference count = .ok none := by
  cases stands with
  | replaying => cases exhausted
  | ended itemized past => exact reference_itemized itemized (Nat.le_of_lt past)
  | progressing => cases exhausted
  | passed terms calls goesOn reached inside beyond =>
    rw [Nat.add_assoc]
    exact reference_passed goesOn reached beyond (calls + 1)

theorem exhausted_of_reference (stands : Stands sequence (count + 1) state)
    (nothing : sequence.reference count = .ok none) : state.exhausted = true := by
  generalize moved : count + 1 = moves at stands
  cases stands with
  | replaying within =>
    rw [reference_of_lt (by omega)] at nothing
    cases nothing
  | ended => rfl
  | passed => rfl
  | progressing terms stalled goesOn reached inside stalls =>
    cases stalled with
    | zero =>
      obtain ⟨earlier, rfl⟩ : ∃ earlier, terms = earlier + 1 := ⟨terms - 1, by omega⟩
      obtain rfl : count = sequence.numbers.length + earlier := by omega
      rw [reference_term goesOn, inside, reached] at nothing
      cases nothing
    | succ stalled =>
      obtain ⟨cause, failing⟩ := stalls (Nat.succ_pos stalled)
      obtain rfl : count = sequence.numbers.length + terms + stalled := by omega
      rw [reference_failing goesOn reached inside failing] at nothing
      cases nothing

theorem exhausts_iff : sequence.Exhausts ↔ ∃ place, sequence.reference place = .ok none := by
  have start : Stands sequence 0 .fresh := .replaying (Nat.zero_le _)
  constructor
  · rintro ⟨count, exhausted⟩
    obtain ⟨after, pulled, stands⟩ := pulls_stand count start
    change (Iterator.pulls count ⟨sequence, .fresh⟩).2.exhausted = true at exhausted
    rw [pulled] at exhausted
    exact ⟨_, reference_of_exhausted stands exhausted⟩
  · rintro ⟨place, nothing⟩
    obtain ⟨after, pulled, stands⟩ := pulls_stand (place + 1) start
    rw [Nat.zero_add] at stands
    refine ⟨place + 1, ?_⟩
    change (Iterator.pulls (place + 1) ⟨sequence, .fresh⟩).2.exhausted = true
    rw [pulled]
    exact exhausted_of_reference stands nothing

theorem exhausts_of_endsWithin (goesOn : sequence.progression = some progression)
    (ended : progression.endsWithin sequence.last terms = true) : sequence.Exhausts := by
  cases terms with
  | zero => cases ended
  | succ terms =>
    refine exhausts_iff.mpr ⟨sequence.numbers.length + terms, ?_⟩
    rw [reference_term goesOn, ended]
    rfl

theorem not_exhausts_of_settlesFrom (settles : sequence.SettlesFrom count outcome)
    (lasting : outcome ≠ .ok none) : ¬ sequence.Exhausts := by
  intro exhausts
  obtain ⟨place, nothing⟩ := exhausts_iff.mp exhausts
  have given := reference_of_settlesFrom settles place
  rw [Nat.add_comm count, nothing_stays nothing count] at given
  exact lasting given.symm

theorem settlesFrom_of_fixed (goesOn : sequence.progression = some progression)
    (reached : progression.term sequence.last (terms + 1) = .ok value)
    (inside : progression.endsWithin sequence.last (terms + 1) = false)
    (fixed : progression.next value = .ok value) :
    sequence.SettlesFrom (sequence.numbers.length + terms) (.ok (some value)) := by
  have within : progression.isBeyond value = false := by
    rw [Progression.endsWithin_succ_of_ok reached, Bool.or_eq_false_iff] at inside
    exact inside.2
  apply settlesFrom_of_reference
  intro further
  rw [Nat.add_assoc, reference_term goesOn, Nat.add_right_comm,
    Progression.endsWithin_add reached, inside, Progression.endsWithin_of_fixed fixed within,
    Progression.term_add reached, Progression.term_of_fixed fixed]
  rfl

theorem settlesFrom_of_failing {cause : NumberError}
    (goesOn : sequence.progression = some progression)
    (failing : progression.next sequence.last = .error cause) :
    sequence.SettlesFrom sequence.numbers.length (.error (.number cause)) := by
  apply settlesFrom_of_reference
  intro further
  have referred := reference_failing goesOn (rfl : progression.term sequence.last 0 = _) rfl failing
    further
  rw [Nat.add_zero] at referred
  rw [referred]
  rfl

theorem finite_of_inside {limit : Int} {moved : Number} (comparable : sequence.Comparable)
    (goesOn : sequence.progression = some progression)
    (arithmetic : progression.pattern = .arithmetic)
    (limited : progression.bound = some bound) (isBound : bound.place? = some (.at limit))
    (several : 2 ≤ sequence.numbers.length)
    (common : commonDifference sequence.numbers = .ok (some progression.step))
    (moves : progression.next sequence.last = .ok moved)
    (inside : progression.isBeyond moved = false) :
    (∃ units, progression.step.place? = some (.at units)) ∧
      ∃ units, sequence.last.place? = some (.at units) := by
  have stepComparable : progression.step ≠ .float .nan :=
    comparable.step progression.step (by simp [Sequence.step, goesOn])
  have lastCases := Number.exists_at_or_infinite
    (comparable.numbers _ (List.getLast_mem sequence.nonempty))
  have infiniteLast (negative : Bool) (isLast : sequence.last = .float (.infinite negative)) :
      progression.step = .float (.infinite negative) :=
    Pattern.step_of_infinite_last several sequence.nonempty common stepComparable isLast
  rcases Number.exists_at_or_infinite stepComparable with ⟨units, isStep⟩ | ⟨negative, isInfinite⟩
  · refine ⟨⟨units, isStep⟩, ?_⟩
    rcases lastCases with finite | ⟨negative, isLast⟩
    · exact finite
    · rw [infiniteLast negative isLast] at isStep
      cases negative <;> cases isStep
  · have start : (∃ units, sequence.last.place? = some (.at units)) ∨
        sequence.last = .float (.infinite negative) := by
      rcases lastCases with finite | ⟨sign, isLast⟩
      · exact .inl finite
      · exact .inr (isLast.trans ((infiniteLast sign isLast).symm.trans isInfinite))
    rw [Progression.isBeyond_of_infinite_step arithmetic limited isBound isInfinite start moves]
      at inside
    cases inside

/-- An arithmetic stream whose step can be applied is exhausted, or gets to a number that the step
does not lead away. -/
theorem exhausts_or_fixed {limit : Int} (comparable : sequence.Comparable)
    (goesOn : sequence.progression = some progression)
    (arithmetic : progression.pattern = .arithmetic)
    (limited : progression.bound = some bound) (isBound : bound.place? = some (.at limit))
    (several : 2 ≤ sequence.numbers.length)
    (common : commonDifference sequence.numbers = .ok (some progression.step))
    (nonzero : progression.step.isZero = false)
    (compatible : Number.Compatible sequence.last progression.step) :
    sequence.Exhausts ∨ ∃ terms value, value ≠ .nan ∧
      progression.term sequence.last (terms + 1) = .ok (.float value) ∧
        progression.endsWithin sequence.last (terms + 1) = false ∧
        progression.next (.float value) = .ok (.float value) := by
  by_cases ended : ∃ terms, progression.endsWithin sequence.last terms = true
  · obtain ⟨terms, ended⟩ := ended
    exact .inl (exhausts_of_endsWithin goesOn ended)
  · have notYet (terms : Nat) : progression.endsWithin sequence.last terms = false :=
      Bool.eq_false_iff.mpr fun beyond => ended ⟨terms, beyond⟩
    have inside (terms : Nat) (value : Number)
        (reached : progression.term sequence.last (terms + 1) = .ok value) :
        progression.isBeyond value = false := by
      have within := notYet (terms + 1)
      rw [Progression.endsWithin_succ_of_ok reached, Bool.or_eq_false_iff] at within
      exact within.2
    have defined (terms : Nat) : ∃ value, progression.term sequence.last terms = .ok value := by
      obtain ⟨value, reached, -⟩ := Progression.term_of_compatible compatible terms
      exact ⟨value, reached⟩
    obtain ⟨moved, moves⟩ := defined 1
    obtain ⟨⟨stepUnits, isStep⟩, units, isLast⟩ := finite_of_inside comparable goesOn arithmetic
      limited isBound several common moves (inside 0 moved moves)
    obtain ⟨terms, value, valueComparable, reached, fixed⟩ :=
      Progression.exists_fixed arithmetic limited isBound isStep nonzero isLast defined inside
    exact .inr ⟨terms, value, valueComparable, reached, notYet _, fixed⟩

/-- An arithmetic stream with a step that is not zero and a finite bound is exhausted some time,
unless rounding loses the step at a binary64 number inside the bound, which is then handed out for
ever, or the last number is an integer too large to be rounded for the step, which then fails for
ever.  Integers always come to an end. -/
theorem arithmetic_exhausts {source : String} {limit : ℚ} (built : ofText source = .ok sequence)
    (goesOn : sequence.progression = some ⟨.arithmetic, step, some bound⟩)
    (nonzero : step.isZero = false) (finite : bound.value? = some (.ofRat limit)) :
    (sequence.Exhausts ∨
      (∃ (value : Binary64) (count : Nat), value ≠ .nan ∧
        (Number.float value).add step = .ok (.float value) ∧
        sequence.exceedsBound (.float value) = .ok false ∧
        sequence.SettlesFrom count (.ok (some (.float value)))) ∨
      ∃ (whole : Int) (near : Binary64), sequence.last = .int whole ∧
        roundingCeiling ≤ whole.natAbs ∧ step = .float near ∧
        sequence.SettlesFrom sequence.numbers.length (.error (.number .operandTooLarge))) ∧
    ∀ wholes : List Int, sequence.numbers = wholes.map .int → sequence.Exhausts := by
  obtain ⟨enough, ⟨-, common⟩ | ⟨geometric, -⟩⟩ := classified_of_ofText built goesOn
  · have several : 2 ≤ sequence.numbers.length := by omega
    obtain ⟨units, isBound⟩ := Number.exists_at_of_value finite
    have comparable := comparable_of_ofText built
    have ends := exhausts_or_fixed comparable goesOn rfl rfl isBound several common nonzero
    constructor
    · rcases Pattern.compatible_or_tooLarge several sequence.nonempty common with
        compatible | ⟨whole, near, isLast, tooLarge, stepped⟩
      · rcases ends compatible with
          exhausts | ⟨terms, value, valueComparable, reached, inside, fixed⟩
        · exact .inl exhausts
        · have exceeds : sequence.exceedsBound (.float value) = .ok false := by
            have within := inside
            rw [Progression.endsWithin_succ_of_ok reached, Bool.or_eq_false_iff] at within
            simp only [exceedsBound, goesOn]
            exact congrArg _ within.2
          exact .inr (.inl ⟨value, _, valueComparable, fixed, exceeds,
            settlesFrom_of_fixed goesOn reached inside fixed⟩)
      · have failing := Progression.next_of_tooLarge stepped tooLarge
        rw [← isLast] at failing
        exact .inr (.inr ⟨whole, near, isLast, tooLarge, stepped,
          settlesFrom_of_failing goesOn failing⟩)
    · intro wholes integers
      obtain ⟨enoughWholes, -, difference, rfl, -⟩ := evenly_of_ofText built goesOn integers
      have nonempty : wholes ≠ [] := List.ne_nil_of_length_pos (by omega)
      obtain ⟨last, isLast⟩ : ∃ last, wholes.getLast? = some last :=
        Option.isSome_iff_exists.mp (List.getLast?_isSome.mpr nonempty)
      have lastInteger := last_int integers isLast
      rw [lastInteger] at ends
      rcases ends True.intro with exhausts | ⟨terms, value, -, reached, -⟩
      · exact exhausts
      · rw [Progression.term_int] at reached
        cases reached
  · cases geometric

theorem arithmetic_exhausts_falling :
    ∃ sequence, ofText "5,2,-1,...,-1000000" = .ok sequence ∧
      sequence.progression = some ⟨.arithmetic, .int (-3), some (.int (-1000000))⟩ ∧
      (Number.int (-3)).isZero = false ∧
      (Number.int (-1000000)).value? = some (.ofRat (-1000000 : Int)) ∧ sequence.Exhausts := by
  have built : ofText "5,2,-1,...,-1000000" = .ok ⟨[5, 2, -1].map .int,
      some ⟨.arithmetic, .int (-3), some (.int (-1000000))⟩, List.cons_ne_nil _ _⟩ := by
    decide +kernel
  have nonzero : (Number.int (-3)).isZero = false := by decide +kernel
  obtain ⟨-, integers⟩ := arithmetic_exhausts built rfl nonzero rfl
  exact ⟨_, built, rfl, nonzero, rfl, integers [5, 2, -1] rfl⟩

def byOne : Progression :=
  ⟨.arithmetic, .float (Binary64.ofInt 1), some (.float (Binary64.ofInt 9007199254740994))⟩

/-- Three numbers one apart: the sum behind the last is rounded back to it. -/
def stalling : Sequence :=
  ⟨[9007199254740990, 9007199254740991, 9007199254740992].map (.float ∘ Binary64.ofInt),
    some byOne, List.cons_ne_nil _ _⟩

/-- Integers near the end of the finite numbers and past it, behind a decimal zero. -/
def farSentence : Sentence where
  first := ⟨.absent, .ofNat 0, some (.ofNat 0)⟩
  further := [.separated .bare (.ofInt (3 * normalCeiling)),
    .separated .bare (.ofInt (6 * normalCeiling))]
  tail := some ⟨.bare, some (.bare, .finite (.ofInt (7 * normalCeiling)))⟩
  enough _ := Nat.le_refl 3

def farStep : Progression :=
  ⟨.arithmetic, .float (Binary64.ofInt (3 * normalCeiling)), some (.int (7 * normalCeiling))⟩

theorem ofText_farSentence :
    ∃ sequence, ofText (String.ofList farSentence.text) = .ok sequence ∧
      sequence.numbers = [.float (Binary64.ofInt 0), .int (3 * normalCeiling),
        .int (6 * normalCeiling)] ∧
      sequence.progression = some farStep := by
  have within : Lexeme.IntegersWithin digitLimit farSentence.text := by
    rw [Lexeme.IntegersWithin, farSentence.words_text]
    decide +kernel
  have common : commonDifference farSentence.numbers =
      .ok (some (.float (Binary64.ofInt (3 * normalCeiling)))) := by
    decide +kernel
  have values : farSentence.numbers = [.float (Binary64.ofInt 0), .int (3 * normalCeiling),
      .int (6 * normalCeiling)] := by
    decide +kernel
  have limit : farSentence.bound = some (.int (7 * normalCeiling)) := by decide +kernel
  refine ⟨_, ofText_arithmetic_sentence within rfl common, values, ?_⟩
  rw [limit]
  rfl

/-- The step is lost at the last number, or cannot be added to it, and the iterator is never
exhausted. -/
theorem not_every_arithmetic_exhausts :
    (ofText "9007199254740990.0,9007199254740991.0,9007199254740992.0,...,9007199254740994.0" =
        .ok stalling ∧
      (Number.float (Binary64.ofInt 1)).isZero = false ∧
      (∃ limit : ℚ, (Number.float (Binary64.ofInt 9007199254740994)).value? =
        some (.ofRat limit)) ∧
      ¬ stalling.Exhausts ∧
      stalling.SettlesFrom 3 (.ok (some (.float (Binary64.ofInt 9007199254740992))))) ∧
    ∃ sequence, ofText (String.ofList farSentence.text) = .ok sequence ∧
      sequence.progression = some farStep ∧ farStep.step.isZero = false ∧
      ¬ sequence.Exhausts ∧ sequence.SettlesFrom 3 (.error (.number .operandTooLarge)) := by
  constructor
  · have built : ofText
        "9007199254740990.0,9007199254740991.0,9007199254740992.0,...,9007199254740994.0" =
          .ok stalling := by
      decide +kernel
    have nonzero : (Number.float (Binary64.ofInt 1)).isZero = false := by decide +kernel
    have finite : ∃ limit : ℚ, (Number.float (Binary64.ofInt 9007199254740994)).value? =
        some (.ofRat limit) := by
      have below : (9007199254740994 : Int).natAbs < roundingCeiling := by decide +kernel
      obtain ⟨magnitude, isFinite, -⟩ := Binary64.ofInt_eq_finite below
      rw [isFinite]
      exact ⟨_, Binary64.value?_finite _ _⟩
    have reached : byOne.term stalling.last 1 =
        .ok (.float (Binary64.ofInt 9007199254740992)) := by
      decide +kernel
    have inside : byOne.endsWithin stalling.last 1 = false := by decide +kernel
    have fixed : byOne.next (.float (Binary64.ofInt 9007199254740992)) =
        .ok (.float (Binary64.ofInt 9007199254740992)) := by
      decide +kernel
    have settles : stalling.SettlesFrom 3
        (.ok (some (.float (Binary64.ofInt 9007199254740992)))) :=
      settlesFrom_of_fixed rfl reached inside fixed
    exact ⟨built, nonzero, finite, not_exhausts_of_settlesFrom settles nofun, settles⟩
  · obtain ⟨sequence, built, numbers, goesOn⟩ := ofText_farSentence
    have nonzero : farStep.step.isZero = false := by decide +kernel
    have isLast : sequence.last = .int (6 * normalCeiling) := by
      simp only [last, numbers, List.getLast_cons_cons, List.getLast_singleton]
    have tooLarge : roundingCeiling ≤ (6 * (normalCeiling : Int)).natAbs := by decide +kernel
    have failing := Progression.next_of_tooLarge (rfl : farStep.step = _) tooLarge
    rw [← isLast] at failing
    have settles := settlesFrom_of_failing goesOn failing
    rw [numbers] at settles
    exact ⟨sequence, built, goesOn, nonzero, not_exhausts_of_settlesFrom settles nofun, settles⟩

end Sequence

end Progressions
