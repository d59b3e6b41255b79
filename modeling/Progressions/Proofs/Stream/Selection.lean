import Progressions.Proofs.Stream.Endless
import Progressions.Proofs.Stream.Extent
import Progressions.Proofs.Stream.Scripts

/-!
# The values that a limit selects

A positive limit selects as many places of a stream, and any other limit all of them, up to the end
of the stream.  How many are selected is an extent, which may be infinite.

A place where the step cannot be applied counts, since the stream has not ended there.
-/

set_option autoImplicit false

namespace Progressions

namespace Sequence

/-- So many places are selected: the limit allows for them and the stream has not ended before. -/
def Selects (sequence : Sequence) (limit : Int) (count : Nat) : Prop :=
  (0 < limit → (count : Int) ≤ limit) ∧ ∀ place < count, sequence.reference place ≠ .ok none

variable {sequence : Sequence} {limit : Int} {count : Nat} {values : List Number}

theorem Selects.of_succ (selects : sequence.Selects limit (count + 1)) :
    sequence.Selects limit count := by
  refine ⟨fun positive => ?_, fun place within => selects.2 place (Nat.lt_succ_of_lt within)⟩
  have allowed := selects.1 positive
  omega

theorem selects_of_yields (yields : sequence.Yields values)
    (allowed : 0 < limit → (values.length : Int) ≤ limit) :
    sequence.Selects limit values.length := by
  refine ⟨allowed, fun place within nothing => ?_⟩
  rw [reference_of_yields yields within] at nothing
  cases nothing

theorem exists_selected (sequence : Sequence) (limit : Int) :
    ∃ extent, IsExtent (sequence.Selects limit) extent :=
  IsExtent.exists_extent fun _ selects => selects.of_succ

theorem isExtent_of_limit (yields : sequence.Yields values) (positive : 0 < limit)
    (all : (values.length : Int) = limit) :
    IsExtent (sequence.Selects limit) values.length := by
  refine .inr ⟨values.length, rfl, ?_, ?_⟩
  · exact .inr (selects_of_yields yields fun _ => Int.le_of_eq all)
  · rintro count (rfl | selects)
    · exact Nat.zero_le _
    · have allowed := selects.1 positive
      omega

/-- The values of a stream that has ended behind them are all that is selected, if the limit does
not cut it off before. -/
theorem isExtent_of_end (yields : sequence.Yields values)
    (ended : sequence.reference values.length = .ok none)
    (allowed : 0 < limit → (values.length : Int) ≤ limit) :
    IsExtent (sequence.Selects limit) values.length := by
  refine .inr ⟨values.length, rfl, .inr (selects_of_yields yields allowed), ?_⟩
  rintro count (rfl | selects)
  · exact Nat.zero_le _
  · exact Nat.le_of_not_lt fun past => selects.2 values.length past ended

theorem isExtent_of_endless (endless : sequence.Endless) (unlimited : limit ≤ 0) :
    IsExtent (sequence.Selects limit) ⊤ := by
  refine .inl ⟨fun count => ⟨fun positive => ?_, fun place _ => ?_⟩, rfl⟩
  · exact absurd positive (Int.not_lt.mpr unlimited)
  · exact endless_iff_reference.mp endless place

theorem allowed_of_le {extent : ℕ∞} (isExtent : IsExtent (sequence.Selects limit) extent)
    (within : (count : ℕ∞) ≤ extent) (positive : 0 < limit) : (count : Int) ≤ limit := by
  cases count with
  | zero => exact Int.le_of_lt positive
  | succ fewer =>
    have selects := (isExtent.le_iff (fun _ selects => selects.of_succ) fewer).mp within
    exact selects.1 positive

theorem one_le_selected {extent : ℕ∞} (isExtent : IsExtent (sequence.Selects limit) extent) :
    1 ≤ extent := by
  refine (isExtent.le_iff (fun _ selects => selects.of_succ) 0).mpr ⟨id, fun place within => ?_⟩
  have first : place < sequence.numbers.length :=
    Nat.lt_of_lt_of_le within (List.length_pos_iff.mpr sequence.nonempty)
  rw [reference_of_lt first]
  exact nofun

/-- Behind everything that is selected the limit is reached or the stream has ended. -/
theorem selected_stops (yields : sequence.Yields values)
    (isExtent : IsExtent (sequence.Selects limit) values.length) :
    (0 < limit ∧ (values.length : Int) = limit) ∨ sequence.reference values.length = .ok none := by
  have notMore : ¬ sequence.Selects limit (values.length + 1) := by
    rw [← isExtent.le_iff (fun _ selects => selects.of_succ), Nat.cast_le]
    omega
  by_cases ended : sequence.reference values.length = .ok none
  · exact .inr ended
  · have running : ∀ place < values.length + 1, sequence.reference place ≠ .ok none := by
      intro place within
      rcases Nat.lt_succ_iff_lt_or_eq.mp within with before | rfl
      · rw [reference_of_yields yields before]
        exact nofun
      · exact ended
    have beyond : ¬ (0 < limit → ((values.length + 1 : Nat) : Int) ≤ limit) := fun allowed =>
      notMore ⟨allowed, running⟩
    have allowed := allowed_of_le isExtent (Nat.cast_le.mpr (Nat.le_refl values.length))
    left
    omega

end Sequence

end Progressions
