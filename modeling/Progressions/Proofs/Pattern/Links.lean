import Mathlib.Data.List.Chain
import Progressions.Proofs.Pattern.Classification

/-!
# Neighbours linked by a step

A step that numbers have in common links every one of them to the next, up to equality of numbers;
and numbers whose neighbours are all linked by the step between the first two have it in common.
-/

set_option autoImplicit false

namespace Progressions

namespace Pattern

variable {link : Link} {step previous : Number} {rest numbers : List Number}

/-- The link between two neighbours is equal to the step. -/
def Linked (link : Link) (step before current : Number) : Prop :=
  ∃ found, link before current = .ok (some found) ∧ found.equals step = true

theorem linked_of_isSteady (steady : isSteady link step previous rest = .ok true) :
    (previous :: rest).IsChain (Linked link step) := by
  induction rest generalizing previous with
  | nil => exact .singleton previous
  | cons current rest inductionHypothesis =>
    obtain ⟨found, linked, same, steadyAfter⟩ := isSteady_cons_eq_true steady
    exact .cons_cons ⟨found, linked, same⟩ (inductionHypothesis steadyAfter)

theorem isSteady_of_linked (chain : (previous :: rest).IsChain (Linked link step)) :
    isSteady link step previous rest = .ok true := by
  induction rest generalizing previous with
  | nil => rfl
  | cons current rest inductionHypothesis =>
    obtain ⟨⟨found, linked, same⟩, later⟩ := List.isChain_cons_cons.mp chain
    rw [isSteady_cons linked, if_pos same, inductionHypothesis later]

/-- The common step links all neighbours, the first two as well. -/
theorem linked_of_commonStep (several : 2 ≤ numbers.length) (comparable : step ≠ .float .nan)
    (common : commonStep link numbers = .ok (some step)) : numbers.IsChain (Linked link step) := by
  match numbers with
  | [] | [_] => simp at several
  | first :: second :: rest =>
    obtain ⟨linked, steady⟩ := commonStep_eq_some common
    have same : step.equals step = true := Number.equals_self_iff.mpr comparable
    exact .cons_cons ⟨step, linked, same⟩ (linked_of_isSteady steady)

theorem commonStep_of_chain {first second : Number}
    (linked : link first second = .ok (some step))
    (chain : (first :: second :: rest).IsChain (Linked link step)) :
    commonStep link (first :: second :: rest) = .ok (some step) := by
  rw [commonStep_of_linked linked, isSteady_of_linked (List.isChain_cons_cons.mp chain).2]
  rfl

theorem step_of_ratio (several : 2 ≤ numbers.length)
    (common : commonStep ratio numbers = .ok (some step)) : ∃ value, step = .float value := by
  match numbers with
  | [] | [_] => simp at several
  | first :: second :: rest =>
    exact Number.div_eq_float (ratio_eq_some (commonStep_eq_some common).1)

/-- The ratio of two integers that is equal to the step. -/
theorem linked_ratio_int {before current : Int}
    (linked : Linked ratio step (.int before) (.int current)) :
    before ≠ 0 ∧ (Number.float (Binary64.ofQuotient current before)).equals step = true := by
  obtain ⟨found, isRatio, same⟩ := linked
  obtain ⟨nonzero, isQuotient, -⟩ := Number.div_int_eq_ok (ratio_eq_some isRatio)
  rw [isQuotient] at same
  exact ⟨nonzero, same⟩

end Pattern

end Progressions
