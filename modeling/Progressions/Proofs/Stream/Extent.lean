import Mathlib.Data.ENat.Basic
import Mathlib.Order.Bounds.Basic
import Progressions.Proofs.Interpretation.Agreement
import Progressions.Proofs.Interpretation.Respecification
import Progressions.Proofs.Number.Exact

/-!
# How far an arithmetic stream of integers goes

Behind its numbers an arithmetic sequence of integers hands out the integers that are evenly spaced
from the last number on, as many as do not lie beyond the exact value of the bound.

Once an integer lies beyond the bound, all later ones do (`Reaches.of_succ`), so a stream that stops
at the first of them loses none, and how far it goes is the greatest count whose integer is within.
-/

set_option autoImplicit false

namespace Progressions

/-! ## Extents -/

/-- How many terms there are, when a positive number of them is reached exactly if it qualifies: the
greatest such number, or no end to them. -/
def IsExtent (qualifies : Nat → Prop) (extent : ℕ∞) : Prop :=
  ((∀ terms, qualifies terms) ∧ extent = ⊤) ∨
    ∃ greatest : Nat, extent = greatest ∧ IsGreatest {terms | terms = 0 ∨ qualifies terms} greatest

namespace IsExtent

variable {qualifies : Nat → Prop} {extent : ℕ∞}

theorem downward (mono : ∀ terms, qualifies (terms + 1) → qualifies terms) {terms : Nat}
    (further : Nat) (reached : qualifies (terms + further)) : qualifies terms := by
  induction further with
  | zero => exact reached
  | succ further inductionHypothesis => exact inductionHypothesis (mono _ reached)

theorem exists_extent (mono : ∀ terms, qualifies (terms + 1) → qualifies terms) :
    ∃ extent, IsExtent qualifies extent := by
  classical
  by_cases all : ∀ terms, qualifies terms
  · exact ⟨⊤, .inl ⟨all, rfl⟩⟩
  · obtain ⟨outside, notReached⟩ := not_forall.mp all
    have bounded : ∀ terms, terms = 0 ∨ qualifies terms → terms ≤ outside := by
      rintro terms (rfl | reached)
      · exact Nat.zero_le _
      · refine Nat.le_of_not_lt fun past => ?_
        obtain ⟨further, rfl⟩ := Nat.exists_eq_add_of_le (Nat.le_of_lt past)
        exact notReached (downward mono further reached)
    have greatest : IsGreatest {terms | terms = 0 ∨ qualifies terms}
        (Nat.findGreatest (fun terms => terms = 0 ∨ qualifies terms) outside) := by
      refine ⟨?_, ?_⟩
      · exact Nat.findGreatest_spec (P := fun terms => terms = 0 ∨ qualifies terms)
          (Nat.zero_le outside) (.inl rfl)
      · intro terms member
        exact Nat.le_findGreatest (bounded terms member) member
    exact ⟨_, .inr ⟨_, rfl, greatest⟩⟩

theorem eq_top (isExtent : IsExtent qualifies extent) (all : ∀ terms, qualifies terms) :
    extent = ⊤ := by
  rcases isExtent with ⟨-, endless⟩ | ⟨greatest, -, -, isBound⟩
  · exact endless
  · have later : greatest + 1 ≤ greatest := isBound (.inr (all (greatest + 1)))
    omega

theorem eq_zero (isExtent : IsExtent qualifies extent) (no : ∀ terms, ¬ qualifies terms) :
    extent = 0 := by
  rcases isExtent with ⟨all, -⟩ | ⟨greatest, rfl, reached, -⟩
  · exact absurd (all 0) (no 0)
  · have first : greatest = 0 := reached.resolve_right (no greatest)
    rw [first]
    rfl

theorem le_iff (isExtent : IsExtent qualifies extent)
    (mono : ∀ terms, qualifies (terms + 1) → qualifies terms) (terms : Nat) :
    ((terms + 1 : Nat) : ℕ∞) ≤ extent ↔ qualifies (terms + 1) := by
  rcases isExtent with ⟨all, rfl⟩ | ⟨greatest, rfl, reached, isBound⟩
  · exact iff_of_true le_top (all _)
  · rw [Nat.cast_le]
    constructor
    · intro within
      have reachedGreatest : qualifies greatest := reached.resolve_left (by omega)
      obtain ⟨further, rfl⟩ := Nat.exists_eq_add_of_le within
      exact downward mono further reachedGreatest
    · intro reached
      exact isBound (.inr reached)

end IsExtent

/-! ## Integers within the bound -/

/-- The integer does not lie beyond the exact value of the bound, seen in the direction of the
difference; there may be no bound. -/
def Within (difference : Int) (bound : Option Number) (whole : Int) : Prop :=
  ∀ number ∈ bound, ∃ limit, number.value? = some limit ∧
    if 0 ≤ difference then .ofRat whole ≤ limit else limit ≤ .ofRat whole

namespace Within

variable {difference whole : Int} {bound : Option Number}

theorem of_add (within : Within difference bound (whole + difference)) :
    Within difference bound whole := by
  intro number present
  obtain ⟨limit, isLimit, inside⟩ := within number present
  refine ⟨limit, isLimit, ?_⟩
  by_cases rising : 0 ≤ difference
  · rw [if_pos rising] at inside ⊢
    refine le_trans (ExtendedRat.ofRat_le_iff.mpr (Int.cast_le.mpr ?_)) inside
    omega
  · rw [if_neg rising] at inside ⊢
    refine le_trans inside (ExtendedRat.ofRat_le_iff.mpr (Int.cast_le.mpr ?_))
    omega

theorem isBeyond_iff (comparable : ∀ number ∈ bound, number ≠ .float .nan) :
    (⟨.arithmetic, .int difference, bound⟩ : Progression).isBeyond (.int whole) = false ↔
      Within difference bound whole := by
  cases bound with
  | none => simp [Progression.isBeyond, Within]
  | some number =>
    obtain ⟨limit, isLimit⟩ := Number.exists_value (comparable number rfl)
    have rises : (⟨.arithmetic, .int difference, some number⟩ : Progression).rises = true ↔
        0 ≤ difference := Number.atLeast_int
    have only : Within difference (some number) whole ↔
        if 0 ≤ difference then .ofRat whole ≤ limit else limit ≤ .ofRat whole := by
      simp [Within, isLimit]
    have compared : (⟨.arithmetic, .int difference, some number⟩ : Progression).isBeyond
        (.int whole) = if (⟨.arithmetic, .int difference, some number⟩ : Progression).rises then
          (Number.int whole).greater number else (Number.int whole).less number := rfl
    rw [only, compared, ← Bool.not_eq_true]
    by_cases rising : 0 ≤ difference
    · rw [if_pos (rises.mpr rising), if_pos rising, Number.greater_iff rfl isLimit, not_lt]
    · rw [if_neg (mt rises.mp rising), if_neg rising, Number.less_iff rfl isLimit, not_lt]

end Within

def Reaches (difference last : Int) (bound : Option Number) (terms : Nat) : Prop :=
  Within difference bound (last + terms * difference)

theorem Reaches.of_succ {difference last : Int} {bound : Option Number} (terms : Nat)
    (reached : Reaches difference last bound (terms + 1)) :
    Reaches difference last bound terms := by
  refine Within.of_add ?_
  have next : last + terms * difference + difference =
      last + (terms + 1 : Nat) * difference := by
    push_cast
    ring
  rw [next]
  exact reached

/-! ## The stream -/

theorem Progression.endsWithin_int {difference last : Int} {bound : Option Number}
    (comparable : ∀ number ∈ bound, number ≠ .float .nan) (terms : Nat) :
    (⟨.arithmetic, .int difference, bound⟩ : Progression).endsWithin (.int last) (terms + 1) =
        false ↔ Reaches difference last bound (terms + 1) := by
  induction terms with
  | zero =>
    rw [endsWithin_succ_of_ok (term_int difference last bound 1)]
    exact Within.isBeyond_iff comparable
  | succ terms inductionHypothesis =>
    rw [endsWithin_succ_of_ok (term_int difference last bound (terms + 2)), Bool.or_eq_false_iff,
      inductionHypothesis, Within.isBeyond_iff comparable]
    exact and_iff_right_of_imp (Reaches.of_succ (terms + 1))

/-- The integer at a place: the given ones first, then as many evenly spaced ones as the extent
says, then none. -/
def evenElement (wholes : List Int) (last difference : Int) (extent : ℕ∞) (place : Nat) :
    Option Int :=
  match wholes[place]? with
  | some whole => some whole
  | none =>
    if ((place + 1 - wholes.length : Nat) : ℕ∞) ≤ extent then
      some (last + (place + 1 - wholes.length : Nat) * difference)
    else
      none

namespace Sequence

variable {sequence : Sequence} {wholes : List Int} {difference last : Int}
  {bound : Option Number} {extent : ℕ∞}

theorem reference_evenly
    (arithmetic : sequence.progression = some ⟨.arithmetic, .int difference, bound⟩)
    (integers : sequence.numbers = wholes.map .int) (isLast : wholes.getLast? = some last)
    (comparable : ∀ number ∈ bound, number ≠ .float .nan)
    (isExtent : IsExtent (Reaches difference last bound) extent)
    (place : Nat) :
    sequence.reference place =
      .ok ((evenElement wholes last difference extent place).map .int) := by
  have sameLength : sequence.numbers.length = wholes.length := by rw [integers, List.length_map]
  by_cases early : place < wholes.length
  · have inNumbers : place < sequence.numbers.length := by omega
    rw [reference_of_lt inNumbers, evenElement, List.getElem?_eq_getElem early]
    simp only [integers, List.getElem_map, Option.map_some]
  · obtain ⟨terms, rfl⟩ := Nat.exists_eq_add_of_le (Nat.le_of_not_lt early)
    have past : wholes[wholes.length + terms]? = none :=
      List.getElem?_eq_none (Nat.le_add_right _ _)
    have counted : wholes.length + terms + 1 - wholes.length = terms + 1 := by omega
    have referred := reference_term arithmetic terms
    rw [last_int integers isLast, Progression.term_int, sameLength] at referred
    have ends : (⟨.arithmetic, .int difference, bound⟩ : Progression).endsWithin (.int last)
        (terms + 1) = false ↔ Reaches difference last bound (terms + 1) :=
      Progression.endsWithin_int comparable terms
    have reaches := isExtent.le_iff Reaches.of_succ terms
    rw [referred, evenElement, past, counted]
    by_cases reached : Reaches difference last bound (terms + 1)
    · rw [ends.mpr reached, if_pos (reaches.mpr reached)]
      rfl
    · have ended := Bool.of_not_eq_false (mt ends.mp reached)
      rw [ended, if_neg (mt reaches.mp reached)]
      rfl

/-- An arithmetic sequence of integers hands out its numbers, then exactly the evenly spaced
integers up to the greatest count whose integer is within the exact bound, then nothing for ever.
Where the difference is zero, that is no integer at all or no end of them. -/
theorem outcomes_evenly {source : String} {step : Number}
    (accepted : ofText source = .ok sequence)
    (arithmetic : sequence.progression = some ⟨.arithmetic, step, bound⟩)
    (integers : sequence.numbers = wholes.map .int) (isLast : wholes.getLast? = some last) :
    ∃ (difference : Int) (extent : ℕ∞), step = .int difference ∧
      IsExtent (Reaches difference last bound) extent ∧
      (bound = none → extent = ⊤) ∧
      (difference = 0 → (Within 0 bound last ∧ extent = ⊤) ∨ (¬ Within 0 bound last ∧ extent = 0)) ∧
      ∀ count, sequence.outcomes count = (List.range count).map fun place =>
        .ok ((evenElement wholes last difference extent place).map .int) := by
  obtain ⟨-, -, difference, rfl, -⟩ := evenly_of_ofText accepted arithmetic integers
  have comparable : ∀ number ∈ bound, number ≠ .float .nan := by
    have found : sequence.bound = bound := by rw [Sequence.bound, arithmetic]; rfl
    rw [← found]
    exact (comparable_of_ofText accepted).bound
  obtain ⟨extent, isExtent⟩ :=
    IsExtent.exists_extent (Reaches.of_succ : ∀ terms, Reaches difference last bound _ → _)
  refine ⟨difference, extent, rfl, isExtent, ?_, ?_, ?_⟩
  · rintro rfl
    refine isExtent.eq_top fun terms => ?_
    simp [Reaches, Within]
  · rintro rfl
    have still (terms : Nat) : Reaches 0 last bound terms ↔ Within 0 bound last := by
      rw [Reaches, Int.mul_zero, Int.add_zero]
    by_cases within : Within 0 bound last
    · exact .inl ⟨within, isExtent.eq_top fun terms => (still terms).mpr within⟩
    · exact .inr ⟨within, isExtent.eq_zero fun terms => mt (still terms).mp within⟩
  · intro count
    rw [outcomes_eq_reference]
    refine List.map_congr_left fun place _ => ?_
    rw [reference_evenly arithmetic integers isLast comparable isExtent]
    rfl

/-- The bound is the greatest integer up to which no integer is rounded: the next one would be
rounded down to it. -/
def roundingBound : Number := .float (Binary64.ofInt 9007199254740992)

def boundedByRounding : Sequence :=
  ⟨[9007199254740989, 9007199254740990, 9007199254740991].map .int,
    some ⟨.arithmetic, .int 1, some roundingBound⟩, List.cons_ne_nil _ _⟩

theorem outcomes_evenly_boundedByRounding :
    ofText "9007199254740989,9007199254740990,9007199254740991,...,9007199254740992.0" =
        .ok boundedByRounding ∧
      boundedByRounding.outcomes 5 =
        ([9007199254740989, 9007199254740990, 9007199254740991, 9007199254740992].map
          fun whole => .ok (some (.int whole))) ++ [.ok none] ∧
      ∃ (difference : Int) (extent : ℕ∞), Number.int 1 = .int difference ∧
        IsExtent (Reaches difference 9007199254740991 (some roundingBound)) extent ∧
        (some roundingBound = none → extent = ⊤) ∧
        (difference = 0 → (Within 0 (some roundingBound) 9007199254740991 ∧ extent = ⊤) ∨
          (¬ Within 0 (some roundingBound) 9007199254740991 ∧ extent = 0)) ∧
        ∀ count, boundedByRounding.outcomes count = (List.range count).map fun place =>
          .ok ((evenElement [9007199254740989, 9007199254740990, 9007199254740991]
            9007199254740991 difference extent place).map .int) := by
  have accepted : ofText
      "9007199254740989,9007199254740990,9007199254740991,...,9007199254740992.0" =
        .ok boundedByRounding := by
    decide +kernel
  have handedOut : boundedByRounding.outcomes 5 =
      ([9007199254740989, 9007199254740990, 9007199254740991, 9007199254740992].map
        fun whole => .ok (some (.int whole))) ++ [.ok none] := by
    decide +kernel
  exact ⟨accepted, handedOut, outcomes_evenly accepted rfl rfl rfl⟩

end Sequence

end Progressions
