import Mathlib.Data.List.Chain
import Mathlib.Data.List.Range
import Mathlib.Tactic.Ring
import Progressions.Proofs.Pattern.Classification

/-!
# Integers with a common difference

The differences of integers are exact, so a list of integers has a common difference exactly when
every number is the one before it with that difference added.
-/

set_option autoImplicit false

namespace Progressions

theorem Number.equals_int {left right : Int} :
    (Number.int left).equals (.int right) = true ↔ left = right := by
  rw [equals_iff]
  constructor
  · rintro ⟨place, here, there⟩
    have scaled : left * unitsPerOne = right * unitsPerOne :=
      Place.at.inj (Option.some.inj (here.trans there.symm))
    have unit : (unitsPerOne : Int) ≠ 0 := Int.natCast_ne_zero_iff_pos.mpr unitsPerOne_pos
    exact Int.eq_of_mul_eq_mul_right unit scaled
  · rintro rfl
    exact ⟨_, rfl, rfl⟩

namespace Pattern

def Evenly (difference : Int) (wholes : List Int) : Prop :=
  wholes.IsChain fun previous current => current - previous = difference

theorem isSteady_int (step previous : Int) (rest : List Int) :
    isSteady difference (.int step) (.int previous) (rest.map .int) = .ok true ↔
      Evenly step (previous :: rest) := by
  induction rest generalizing previous with
  | nil => simp [isSteady, Evenly]
  | cons current rest inductionHypothesis =>
    have linked : difference (.int previous) (.int current) =
        .ok (some (.int (current - previous))) := rfl
    rw [List.map_cons, isSteady_cons linked, Evenly, List.isChain_cons_cons]
    by_cases same : current - previous = step
    · rw [if_pos (Number.equals_int.mpr same), inductionHypothesis current, Evenly]
      simp [same]
    · rw [if_neg (fun equal => same (Number.equals_int.mp equal))]
      simp [same]

theorem commonDifference_int {wholes : List Int} (several : 2 ≤ wholes.length) (step : Number) :
    commonDifference (wholes.map .int) = .ok (some step) ↔
      ∃ whole, step = .int whole ∧ Evenly whole wholes := by
  match wholes with
  | [] | [_] => simp at several
  | first :: second :: rest =>
    have linked : difference (.int first) (.int second) =
        .ok (some (.int (second - first))) := rfl
    constructor
    · intro common
      obtain ⟨found, steady⟩ := commonStep_eq_some common
      obtain rfl := Option.some.inj (Except.ok.inj (linked.symm.trans found))
      refine ⟨second - first, rfl, ?_⟩
      rw [Evenly, List.isChain_cons_cons]
      exact ⟨rfl, (isSteady_int _ _ _).mp steady⟩
    · rintro ⟨whole, rfl, evenly⟩
      rw [Evenly, List.isChain_cons_cons] at evenly
      obtain ⟨rfl, evenly⟩ := evenly
      have steady := (isSteady_int _ _ _).mpr evenly
      rw [commonDifference, List.map_cons, List.map_cons, commonStep_of_linked linked, steady]
      rfl

def IsArithmetic (wholes : List Int) : Prop := ∃ difference, Evenly difference wholes

section Classification

variable {wholes : List Int}

/-- Integers are arithmetic with a step exactly when all neighbours differ by it. -/
theorem classify_arithmetic_iff (several : 2 ≤ wholes.length) (location : Option Location)
    (step : Number) :
    classify (wholes.map .int) location = .ok ⟨.arithmetic, step⟩ ↔
      ∃ difference, step = .int difference ∧ Evenly difference wholes := by
  have severalNumbers : 2 ≤ (wholes.map Number.int).length := by rwa [List.length_map]
  rw [← commonDifference_int several]
  constructor
  · intro classified
    rcases classify_eq_ok severalNumbers classified with ⟨-, common⟩ | ⟨geometric, -⟩
    · exact common
    · cases geometric
  · exact classify_of_commonDifference severalNumbers

theorem commonDifference_eq_none_iff (several : 2 ≤ wholes.length) :
    commonDifference (wholes.map .int) = .ok none ↔ ¬ IsArithmetic wholes := by
  have severalNumbers : 2 ≤ (wholes.map Number.int).length := by rwa [List.length_map]
  have inside : ¬ OverflowsAt difference differenceOverflows (wholes.map .int) := by
    rintro ⟨front, previous, current, back, shape, last, -, incompatible⟩
    have previousMember : previous ∈ wholes.map Number.int := by
      rw [shape]
      exact List.mem_append_left _ (List.mem_of_getLast? last)
    have currentMember : current ∈ wholes.map Number.int := by simp [shape]
    obtain ⟨_, -, rfl⟩ := List.mem_map.mp previousMember
    obtain ⟨_, -, rfl⟩ := List.mem_map.mp currentMember
    exact incompatible True.intro
  obtain ⟨answer, compared⟩ := commonStep_defined difference_failsOn severalNumbers inside
  change commonDifference (wholes.map .int) = .ok answer at compared
  constructor
  · rintro noDifference ⟨difference, evenly⟩
    have common := (commonDifference_int several _).mpr ⟨difference, rfl, evenly⟩
    rw [noDifference] at common
    cases common
  · intro uneven
    cases answer with
    | none => exact compared
    | some step =>
      obtain ⟨difference, -, evenly⟩ := (commonDifference_int several step).mp compared
      exact absurd ⟨difference, evenly⟩ uneven

end Classification

/-- Evenly spaced integers can be taken further. -/
theorem Evenly.append {difference last : Int} {wholes : List Int}
    (evenly : Evenly difference wholes) (isLast : wholes.getLast? = some last) (count : Nat) :
    Evenly difference
      (wholes ++ (List.range count).map fun place : Nat => last + (place + 1) * difference) := by
  rw [Evenly, List.isChain_append]
  refine ⟨evenly, ?_, ?_⟩
  · rw [List.isChain_map, List.isChain_range]
    intro place _
    push_cast
    ring
  · intro previous isPrevious current isCurrent
    obtain rfl := Option.some.inj (isLast.symm.trans isPrevious)
    cases count with
    | zero => cases isCurrent
    | succ count =>
      rw [List.range_succ_eq_map, List.map_cons, List.head?_cons] at isCurrent
      rw [← Option.some.inj isCurrent]
      push_cast
      ring

end Pattern

end Progressions
