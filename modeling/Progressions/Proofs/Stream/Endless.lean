import Mathlib.Data.Finite.Prod
import Mathlib.Data.Fintype.Option
import Mathlib.Data.Fintype.Pigeonhole
import Progressions.Proofs.Pattern.Links
import Progressions.Proofs.Stream.Termination

/-!
# Streams without an end

A sequence without a bound has values for ever, but it is not the only one that does.  There are
finitely many binary64 numbers, so a bounded stream of them that does not end comes back to one it
has handed out, and a stream that comes back to a value goes round from there: the values in between
are inside the bound, and so are all later ones (`endsWithin_of_cycle`).  Integers never come back
unless the step is zero.  They pass every finite bound, and go on for ever only towards the infinity
that they head for.
-/

set_option autoImplicit false

namespace Progressions

/-! ## Finitely many binary64 numbers -/

instance : Finite Magnitude := by
  let count (magnitude : Magnitude) : Fin unitsCeiling :=
    ⟨magnitude.units, magnitude.representable.1⟩
  apply Finite.of_injective count
  intro left right same
  exact Magnitude.eq_of_units_eq (congrArg Fin.val same)

instance : Finite Binary64 := by
  let parts : Binary64 → Option (Bool × Option Magnitude)
    | .nan => none
    | .infinite negative => some (negative, none)
    | .finite negative magnitude => some (negative, some magnitude)
  apply Finite.of_injective parts
  intro left right same
  cases left <;> cases right <;> simp_all [parts]

namespace Progression

variable {progression : Progression} {start value : Number}

/-! ## Terms that come back -/

/-- A term that comes back inside the bound does so over and over. -/
theorem endsWithin_of_cycle {period : Nat} (returns : progression.term value period = .ok value)
    (inside : progression.endsWithin value period = false) (rounds : Nat) :
    progression.term value (period * rounds) = .ok value ∧
      progression.endsWithin value (period * rounds) = false := by
  induction rounds with
  | zero => exact ⟨rfl, rfl⟩
  | succ rounds inductionHypothesis =>
    obtain ⟨back, within⟩ := inductionHypothesis
    rw [Nat.mul_succ, term_add back, endsWithin_add back, within, inside]
    exact ⟨returns, rfl⟩

theorem endsWithin_of_repeated {first second : Nat} (later : first < second)
    (here : progression.term start first = .ok value)
    (there : progression.term start second = .ok value)
    (inside : progression.endsWithin start second = false) (count : Nat) :
    progression.endsWithin start count = false := by
  obtain ⟨before, rfl⟩ := Nat.exists_eq_add_of_lt later
  rw [Nat.add_assoc, term_add here] at there
  rw [Nat.add_assoc, endsWithin_add here, Bool.or_eq_false_iff] at inside
  obtain ⟨-, far⟩ := endsWithin_of_cycle there inside.2 count
  have whole : progression.endsWithin start (first + (before + 1) * count) = false := by
    rw [endsWithin_add here, inside.1, far]
    rfl
  -- The rounds take the stream behind every place.
  have behind : count ≤ first + (before + 1) * count := by
    have round : count ≤ (before + 1) * count := Nat.le_mul_of_pos_left count (Nat.succ_pos before)
    omega
  obtain ⟨further, shape⟩ := Nat.exists_eq_add_of_le behind
  rw [shape] at whole
  by_contra ended
  rw [endsWithin_mono (Bool.of_not_eq_false ended) further] at whole
  cases whole

/-! ## Terms that are rounded -/

theorem float_of_term {terms : Nat}
    (mixed : (∃ near, progression.step = .float near) ∨ ∃ near, start = .float near)
    (reached : progression.term start (terms + 1) = .ok value) : ∃ near, value = .float near := by
  have rounded : ∀ {current moved : Number}, progression.next current = .ok moved →
      ((∃ near, progression.step = .float near) ∨ ∃ near, current = .float near) →
        ∃ near, moved = .float near := by
    intro current moved moves isFloat
    rcases next_eq_ok moves with ⟨first, second, isInt, stepInt, -⟩ | ⟨left, right, -, -, -, moved⟩
    · rcases isFloat with ⟨near, isFloat⟩ | ⟨near, isFloat⟩
      · rw [stepInt] at isFloat
        cases isFloat
      · rw [isInt] at isFloat
        cases isFloat
    · exact ⟨_, moved⟩
  induction terms generalizing value with
  | zero => exact rounded reached mixed
  | succ terms inductionHypothesis =>
    obtain ⟨previous, reachedBefore, moves⟩ := exists_of_bind_eq_ok reached
    exact rounded moves (.inr (inductionHypothesis reachedBefore))

/-- Binary64 terms that go on for ever come back. -/
theorem exists_repeated
    (mixed : (∃ near, progression.step = .float near) ∨ ∃ near, start = .float near)
    (defined : ∀ terms, ∃ value, progression.term start (terms + 1) = .ok value) :
    ∃ first second value, first < second ∧
      progression.term start (first + 1) = .ok value ∧
        progression.term start (second + 1) = .ok value := by
  have floats (terms : Nat) : ∃ near, progression.term start (terms + 1) = .ok (.float near) := by
    obtain ⟨value, reached⟩ := defined terms
    obtain ⟨near, rfl⟩ := float_of_term mixed reached
    exact ⟨near, reached⟩
  choose values reached using floats
  obtain ⟨first, second, different, same⟩ := Finite.exists_ne_map_eq_of_infinite values
  rcases Nat.lt_or_gt_of_ne different with before | behind
  · exact ⟨first, second, _, before, reached first, by rw [same]; exact reached second⟩
  · exact ⟨second, first, _, behind, reached second, by rw [← same]; exact reached first⟩

end Progression

namespace Sequence

/-- No move of a fresh iterator finds the end. -/
def Endless (sequence : Sequence) : Prop := ∀ count, .ok none ∉ sequence.outcomes count

/-- A value that is handed out behind the numbers is handed out again later. -/
def Recurs (sequence : Sequence) : Prop :=
  ∃ (first second : Nat) (value : Number), sequence.numbers.length ≤ first ∧ first < second ∧
    (sequence.outcomes (second + 1))[first]? = some (.ok (some value)) ∧
      (sequence.outcomes (second + 1))[second]? = some (.ok (some value))

/-- Integers are handed out towards an infinity, and that infinity is the bound. -/
def CountsToInfinity (sequence : Sequence) : Prop :=
  ∃ last difference : Int, sequence.last = .int last ∧ sequence.progression =
    some ⟨.arithmetic, .int difference, some (.float (.infinite (decide (difference < 0))))⟩

variable {source : String} {sequence : Sequence} {progression : Progression}

theorem endless_iff_reference :
    sequence.Endless ↔ ∀ place, sequence.reference place ≠ .ok none := by
  constructor
  · intro endless place nothing
    apply endless (place + 1)
    rw [outcomes_succ, nothing]
    exact List.mem_append_right _ List.mem_cons_self
  · intro never count member
    rw [outcomes_eq_reference] at member
    obtain ⟨place, -, nothing⟩ := List.mem_map.mp member
    exact never place (mapError_eq_ok_iff.mp nothing)

theorem endless_of_inside (goesOn : sequence.progression = some progression)
    (inside : ∀ count, progression.endsWithin sequence.last count = false) : sequence.Endless := by
  rw [endless_iff_reference]
  intro place nothing
  by_cases early : place < sequence.numbers.length
  · rw [reference_of_lt early] at nothing
    cases nothing
  · obtain ⟨terms, rfl⟩ := Nat.exists_eq_add_of_le (Nat.le_of_not_lt early)
    rw [reference_term goesOn, inside] at nothing
    cases reached : progression.term sequence.last (terms + 1) with
    | ok value => simp [reached, Except.map] at nothing
    | error cause => simp [reached, Except.map] at nothing

theorem inside_of_endless (goesOn : sequence.progression = some progression)
    (endless : sequence.Endless) (count : Nat) :
    progression.endsWithin sequence.last count = false := by
  cases count with
  | zero => rfl
  | succ terms =>
    by_contra ended
    apply endless_iff_reference.mp endless (sequence.numbers.length + terms)
    rw [reference_term goesOn, Bool.of_not_eq_false ended]
    rfl

theorem getElem?_outcomes {place count : Nat} (within : place < count) :
    (sequence.outcomes count)[place]? = some ((sequence.reference place).mapError .number) := by
  rw [outcomes_eq_reference, List.getElem?_map, List.getElem?_range within]
  rfl

theorem recurs_of_terms {first second : Nat} {value : Number}
    (goesOn : sequence.progression = some progression) (endless : sequence.Endless)
    (later : first < second)
    (here : progression.term sequence.last (first + 1) = .ok value)
    (there : progression.term sequence.last (second + 1) = .ok value) : sequence.Recurs := by
  refine ⟨sequence.numbers.length + first, sequence.numbers.length + second, value,
    Nat.le_add_right _ _, Nat.add_lt_add_left later _, ?_, ?_⟩
  · rw [getElem?_outcomes (by omega),
      (reference_eq_value_iff goesOn).mpr ⟨here, inside_of_endless goesOn endless _⟩]
    rfl
  · rw [getElem?_outcomes (by omega),
      (reference_eq_value_iff goesOn).mpr ⟨there, inside_of_endless goesOn endless _⟩]
    rfl

theorem endless_of_recurs (recurs : sequence.Recurs) : sequence.Endless := by
  obtain ⟨first, second, value, behind, later, here, there⟩ := recurs
  rw [getElem?_outcomes (by omega)] at here there
  have given := mapError_eq_ok_iff.mp (Option.some.inj here)
  have givenAgain := mapError_eq_ok_iff.mp (Option.some.inj there)
  obtain ⟨terms, rfl⟩ := Nat.exists_eq_add_of_le behind
  cases goesOn : sequence.progression with
  | none =>
    rw [reference_itemized goesOn behind] at given
    cases given
  | some progression =>
    obtain ⟨further, rfl⟩ := Nat.exists_eq_add_of_lt later
    rw [Nat.add_assoc, Nat.add_assoc, reference_eq_value_iff goesOn] at givenAgain
    obtain ⟨reached, -⟩ := (reference_eq_value_iff goesOn).mp given
    obtain ⟨reachedAgain, inside⟩ := givenAgain
    exact endless_of_inside goesOn
      (Progression.endsWithin_of_repeated (by omega) reached reachedAgain inside)

theorem endless_of_isInfinite (infinite : sequence.isInfinite = true) : sequence.Endless := by
  cases goesOn : sequence.progression with
  | none => simp [isInfinite, hasEllipsis, goesOn] at infinite
  | some progression =>
    have unbounded : progression.bound = none := by
      simpa [isInfinite, hasEllipsis, bound, goesOn] using infinite
    apply endless_of_inside goesOn
    intro count
    simp only [Progression.endsWithin, List.any_eq_false]
    intro place _
    split
    · simp [Progression.isBeyond, unbounded]
    · simp

/-! ## Integers -/

theorem within_infinite {difference whole : Int} {negative : Bool} :
    Within difference (some (.float (.infinite negative))) whole ↔
      negative = decide (difference < 0) := by
  have only : Within difference (some (.float (.infinite negative))) whole ↔
      if 0 ≤ difference then ExtendedRat.ofRat whole ≤ (if negative then ⊥ else ⊤)
        else (if negative then ⊥ else ⊤) ≤ ExtendedRat.ofRat whole := by
    have value : (Number.float (.infinite negative)).value? =
        some (if negative then ⊥ else ⊤) := rfl
    simp [Within, value]
  rw [only]
  by_cases rising : 0 ≤ difference
  · have notFalling : ¬ difference < 0 := Int.not_lt.mpr rising
    cases negative with
    | true => simp [rising, notFalling, ExtendedRat.ofRat_ne_bot]
    | false => simp [rising, notFalling]
  · have falling : difference < 0 := Int.not_le.mp rising
    cases negative with
    | true => simp [falling]
    | false => simp [falling, ExtendedRat.ofRat_ne_top]

theorem endless_of_countsToInfinity (counts : sequence.CountsToInfinity) : sequence.Endless := by
  obtain ⟨last, difference, isLast, goesOn⟩ := counts
  apply endless_of_inside goesOn
  intro count
  cases count with
  | zero => rfl
  | succ terms =>
    rw [isLast, Progression.endsWithin_int (by simp)]
    exact within_infinite.mpr rfl

theorem integers_of_endless {last difference : Int} {limit : Number}
    (built : ofText source = .ok sequence) (endless : sequence.Endless)
    (isLast : sequence.last = .int last)
    (goesOn : sequence.progression = some ⟨.arithmetic, .int difference, some limit⟩) :
    sequence.CountsToInfinity ∨ sequence.Recurs := by
  have inside := inside_of_endless goesOn endless
  have comparable := comparable_of_ofText built
  by_cases still : difference = 0
  · right
    subst still
    have reached (terms : Nat) : (⟨.arithmetic, .int 0, some limit⟩ : Progression).term
        sequence.last terms = .ok (.int last) := by
      rw [isLast, Progression.term_int]
      simp
    exact recurs_of_terms goesOn endless Nat.zero_lt_one (reached 1) (reached 2)
  · left
    have isBound : sequence.bound = some limit := by simp [bound, goesOn]
    have limitComparable := comparable.bound limit isBound
    rcases Number.exists_at_or_infinite limitComparable with ⟨units, isPlace⟩ | ⟨negative, rfl⟩
    · -- A finite bound is passed some time.
      exfalso
      obtain ⟨enough, ⟨-, common⟩ | ⟨geometric, -⟩⟩ := classified_of_ofText built goesOn
      · have nonzero : (Number.int difference).isZero = false :=
          Bool.eq_false_iff.mpr (mt Number.isZero_int.mp still)
        have compatible : Number.Compatible sequence.last (.int difference) := by
          rw [isLast]
          trivial
        rcases exhausts_or_fixed comparable goesOn rfl rfl isPlace (by omega) common nonzero
            compatible with exhausts | ⟨terms, value, -, reached, -⟩
        · obtain ⟨place, nothing⟩ := exhausts_iff.mp exhausts
          exact endless_iff_reference.mp endless place nothing
        · rw [isLast, Progression.term_int] at reached
          cases reached
      · cases geometric
    · have reaches := inside 1
      rw [isLast, Progression.endsWithin_int (by simp)] at reaches
      rw [within_infinite.mp reaches] at goesOn
      exact ⟨last, difference, isLast, goesOn⟩

/-- A bounded stream of binary64 numbers that neither ends nor fails comes back to one of them. -/
theorem recurs_of_endless (goesOn : sequence.progression = some progression)
    (endless : sequence.Endless)
    (unfailing : ∀ count, ∀ outcome ∈ sequence.outcomes count, ∃ element, outcome = .ok element)
    (mixed : (∃ near, progression.step = .float near) ∨ ∃ near, sequence.last = .float near) :
    sequence.Recurs := by
  have defined (terms : Nat) :
      ∃ value, progression.term sequence.last (terms + 1) = .ok value := by
    have member : (sequence.reference (sequence.numbers.length + terms)).mapError .number ∈
        sequence.outcomes (sequence.numbers.length + terms + 1) := by
      rw [outcomes_succ]
      exact List.mem_append_right _ List.mem_cons_self
    obtain ⟨element, given⟩ := unfailing _ _ member
    rw [reference_term goesOn, inside_of_endless goesOn endless] at given
    cases reached : progression.term sequence.last (terms + 1) with
    | ok value => exact ⟨value, rfl⟩
    | error cause =>
      rw [reached] at given
      cases given
  obtain ⟨first, second, value, later, here, there⟩ := Progression.exists_repeated mixed defined
  exact recurs_of_terms goesOn endless later here there

/-- A stream without failures never ends exactly if its sequence has no bound, or it has one, and
integers are handed out towards the infinity that is the bound, or some value behind the numbers is
handed out again. -/
theorem endless_iff (built : ofText source = .ok sequence)
    (unfailing : ∀ count, ∀ outcome ∈ sequence.outcomes count, ∃ element, outcome = .ok element) :
    sequence.Endless ↔ sequence.isInfinite = true ∨
      sequence.bound.isSome = true ∧ (sequence.CountsToInfinity ∨ sequence.Recurs) := by
  constructor
  · intro endless
    cases goesOn : sequence.progression with
    | none =>
      exact absurd (reference_itemized goesOn (Nat.le_refl _))
        (endless_iff_reference.mp endless sequence.numbers.length)
    | some progression =>
      obtain ⟨pattern, step, limited⟩ := progression
      cases limited with
      | none => exact .inl (by simp [isInfinite, hasEllipsis, bound, goesOn])
      | some limit =>
        refine .inr ⟨by simp [bound, goesOn], ?_⟩
        have rounded := recurs_of_endless goesOn endless unfailing
        obtain ⟨enough, ⟨arithmetic, -⟩ | ⟨-, -, ratios⟩⟩ := classified_of_ofText built goesOn
        · cases step with
          | float near => exact .inr (rounded (.inl ⟨near, rfl⟩))
          | int difference =>
            cases isLast : sequence.last with
            | float near => exact .inr (rounded (.inr ⟨near, isLast⟩))
            | int last =>
              obtain rfl : pattern = .arithmetic := arithmetic
              exact integers_of_endless built endless isLast goesOn
        · exact .inr (rounded (.inl (Pattern.step_of_ratio (by omega) ratios)))
  · rintro (infinite | ⟨-, counts | recurs⟩)
    · exact endless_of_isInfinite infinite
    · exact endless_of_countsToInfinity counts
    · exact endless_of_recurs recurs

def naturals : Sequence :=
  ⟨[.int 1, .int 2, .int 3], some ⟨.arithmetic, .int 1, some (.float (.infinite false))⟩,
    List.cons_ne_nil _ _⟩

theorem ofText_naturals : ofText "1,2,3,...,Inf" = .ok naturals := by decide +kernel

theorem naturals_unfailing :
    ∀ count, ∀ outcome ∈ naturals.outcomes count, ∃ element, outcome = .ok element := by
  apply outcomes_of_continuable
  intro progression goesOn
  obtain rfl := Option.some.inj goesOn
  trivial

theorem naturals_countsToInfinity : naturals.CountsToInfinity := ⟨3, 1, rfl, rfl⟩

theorem naturals_endless_iff :
    ofText "1,2,3,...,Inf" = .ok naturals ∧
      (∀ count, ∀ outcome ∈ naturals.outcomes count, ∃ element, outcome = .ok element) ∧
        (naturals.Endless ↔ naturals.isInfinite = true ∨
          naturals.bound.isSome = true ∧ (naturals.CountsToInfinity ∨ naturals.Recurs)) :=
  ⟨ofText_naturals, naturals_unfailing, endless_iff ofText_naturals naturals_unfailing⟩

/-- Whether there is a bound does not tell whether values keep coming. -/
theorem not_every_endless_isInfinite :
    ¬ ∀ (source : String) (sequence : Sequence), ofText source = .ok sequence →
      (∀ count, ∀ outcome ∈ sequence.outcomes count, ∃ element, outcome = .ok element) →
        (sequence.isInfinite = true ↔ sequence.Endless) := by
  intro agree
  have endless := endless_of_countsToInfinity naturals_countsToInfinity
  have infinite := (agree _ naturals ofText_naturals naturals_unfailing).mpr endless
  cases infinite

end Sequence

end Progressions
