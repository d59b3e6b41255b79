/-!
# Results with errors

How an `Except` value behaves under a change of its error and in a chain of steps.
-/

set_option autoImplicit false

namespace Progressions

variable {Cause Other Value Result : Type}

@[simp] theorem mapError_ok (change : Cause → Other) (value : Value) :
    (Except.ok value : Except Cause Value).mapError change = .ok value := rfl

@[simp] theorem mapError_error (change : Cause → Other) (cause : Cause) :
    (Except.error cause : Except Cause Value).mapError change = .error (change cause) := rfl

theorem mapError_eq_ok_iff {change : Cause → Other} {outcome : Except Cause Value}
    {value : Value} : outcome.mapError change = .ok value ↔ outcome = .ok value := by
  cases outcome <;> simp

/-- A computation in steps that has a result has one after its first step. -/
theorem exists_of_bind_eq_ok {first : Except Cause Value} {further : Value → Except Cause Result}
    {result : Result} (computed : (first >>= further) = .ok result) :
    ∃ value, first = .ok value ∧ further value = .ok result := by
  cases first with
  | error => cases computed
  | ok value => exact ⟨value, rfl, computed⟩

def failure? : Except Cause Value → Option Cause
  | .ok _ => none
  | .error cause => some cause

theorem failure?_eq_none_iff {outcome : Except Cause Value} :
    failure? outcome = none ↔ ∃ value, outcome = .ok value := by
  cases outcome <;> simp [failure?]

theorem failure?_eq_some_iff {outcome : Except Cause Value} {cause : Cause} :
    failure? outcome = some cause ↔ outcome = .error cause := by
  cases outcome <;> simp [failure?]

theorem failure?_map (change : Value → Result) (outcome : Except Cause Value) :
    failure? (outcome >>= fun value => .ok (change value)) = failure? outcome := by
  cases outcome <;> rfl

/-- The first of two steps that fails is why both fail. -/
theorem failure?_map₂ (combine : Value → Other → Result) (first : Except Cause Value)
    (second : Except Cause Other) :
    failure? (first >>= fun value => second >>= fun other => .ok (combine value other)) =
      (failure? first).or (failure? second) := by
  cases first with
  | error => rfl
  | ok => cases second <;> rfl

theorem mapM_eq_ok_map {compute : Value → Except Cause Result} {expected : Value → Result}
    {values : List Value} (computed : ∀ value ∈ values, compute value = .ok (expected value)) :
    values.mapM compute = .ok (values.map expected) := by
  induction values with
  | nil => rfl
  | cons value values inductionHypothesis =>
    have later := inductionHypothesis fun other member =>
      computed other (List.mem_cons_of_mem value member)
    rw [List.mapM_cons, computed value List.mem_cons_self, later]
    rfl

end Progressions
