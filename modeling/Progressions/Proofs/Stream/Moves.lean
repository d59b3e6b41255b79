import Progressions.Proofs.Number.Integers
import Progressions.Proofs.Stream.Reference

/-!
# Moves of a progression

Both patterns move alike: integers exactly by an integer step, and otherwise by one rounded
operation on the binary64 numbers nearest to the value and to the step.  Only the last explicit
number can be an integer that has to be rounded for it, since every value behind a rounded operation
is a binary64 number.
-/

set_option autoImplicit false

namespace Progressions

namespace Pattern

def whole : Pattern → Int → Int → Int
  | .arithmetic => (· + ·)
  | .geometric => (· * ·)

def operation : Pattern → Binary64 → Binary64 → Binary64
  | .arithmetic => Binary64.add
  | .geometric => Binary64.mul

theorem operation_arithmetic : arithmetic.operation = Binary64.add := rfl

theorem operation_geometric : geometric.operation = Binary64.mul := rfl

end Pattern

namespace Progression

variable {progression : Progression} {start current moved : Number}

theorem next_eq_combine (progression : Progression) (current : Number) :
    progression.next current =
      Number.combine progression.pattern.whole progression.pattern.operation current
        progression.step := by
  cases pattern : progression.pattern with
  | arithmetic => simp only [next, pattern, Number.add_eq_combine, Pattern.whole, Pattern.operation]
  | geometric => simp only [next, pattern, Number.mul_eq_combine, Pattern.whole, Pattern.operation]

theorem next_float {left right : Binary64} (converts : progression.step.toBinary64 = .ok right) :
    progression.next (.float left) = .ok (.float (progression.pattern.operation left right)) := by
  have combined : progression.next (.float left) =
      Number.rounded progression.pattern.operation (.float left) progression.step :=
    next_eq_combine progression (.float left)
  rw [combined, Number.rounded, converts]
  rfl

section IntegerByFloat

variable {whole : Int} {near : Binary64} (stepped : progression.step = .float near)

include stepped

theorem next_int (inside : whole.natAbs < roundingCeiling) :
    progression.next (.int whole) =
      .ok (.float (progression.pattern.operation (Binary64.ofInt whole) near)) := by
  have convertible : (Number.int whole).Convertible := inside
  obtain ⟨left, converts, -⟩ := Number.toBinary64_of_convertible convertible
  have combined : progression.next (.int whole) =
      Number.rounded progression.pattern.operation (.int whole) (.float near) := by
    rw [next_eq_combine, stepped]
    rfl
  rw [combined, Number.rounded, converts, (Number.ofInt_of_toBinary64 converts).1]
  rfl

theorem next_of_tooLarge (tooLarge : roundingCeiling ≤ whole.natAbs) :
    progression.next (.int whole) = .error .operandTooLarge := by
  rw [next_eq_combine, stepped]
  apply Number.combine_of_not_compatible
  rintro ⟨convertible, -⟩
  exact Nat.not_lt.mpr tooLarge convertible

end IntegerByFloat

/-- What the step is applied to: an integer is rounded first if the step is a binary64 number. -/
def operand (progression : Progression) (current : Number) : Number :=
  match current, progression.step with
  | .int whole, .float _ => .float (Binary64.ofInt whole)
  | current, _ => current

/-- How a move comes about: exactly, or by a rounded operation on the operand and the step. -/
theorem next_eq_ok (moves : progression.next current = .ok moved) :
    (∃ first second, current = .int first ∧ progression.step = .int second ∧
        progression.operand current = current ∧
        moved = .int (progression.pattern.whole first second)) ∨
      ∃ left right, progression.operand current = .float left ∧ current.toBinary64 = .ok left ∧
        progression.step.toBinary64 = .ok right ∧
        moved = .float (progression.pattern.operation left right) := by
  rw [next_eq_combine] at moves
  cases stepped : progression.step with
  | int second =>
    rw [stepped] at moves
    cases current with
    | int first =>
      exact .inl ⟨first, second, rfl, rfl, by simp only [operand, stepped],
        (Except.ok.inj moves).symm⟩
    | float value =>
      obtain ⟨left, right, leftConverts, rightConverts, isFloat⟩ := Number.rounded_eq_ok moves
      exact .inr ⟨left, right, congrArg Number.float (Except.ok.inj leftConverts), leftConverts,
        rightConverts, isFloat⟩
  | float second =>
    rw [stepped] at moves
    cases current with
    | int first =>
      obtain ⟨left, right, leftConverts, rightConverts, isFloat⟩ := Number.rounded_eq_ok moves
      refine .inr ⟨left, right, ?_, leftConverts, rightConverts, isFloat⟩
      rw [(Number.ofInt_of_toBinary64 leftConverts).1]
      simp only [operand, stepped]
    | float value =>
      obtain ⟨left, right, leftConverts, rightConverts, isFloat⟩ := Number.rounded_eq_ok moves
      exact .inr ⟨left, right, congrArg Number.float (Except.ok.inj leftConverts), leftConverts,
        rightConverts, isFloat⟩

/-- Nothing is rounded before a move that is not the first one. -/
theorem operand_of_moved (moves : progression.next start = .ok current) :
    progression.operand current = current := by
  rcases next_eq_ok moves with ⟨first, second, -, stepped, -, rfl⟩ | ⟨left, right, -, -, -, rfl⟩
  · simp only [operand, stepped]
  · rfl

theorem operand_of_term {terms : Nat} (behind : 0 < terms)
    (reached : progression.term start terms = .ok current) :
    progression.operand current = current := by
  obtain ⟨earlier, rfl⟩ := Nat.exists_eq_add_of_lt behind
  rw [Nat.zero_add, term] at reached
  obtain ⟨previous, -, moves⟩ := exists_of_bind_eq_ok reached
  exact operand_of_moved moves

/-- Rounding changes no integer of at most 53 binary digits. -/
theorem operand_equals {whole : Int} (short : whole.natAbs ≤ 2 ^ 53) :
    (progression.operand (.int whole)).equals (.int whole) = true := by
  cases stepped : progression.step with
  | int second =>
    simp only [operand, stepped]
    exact Number.equals_self_iff.mpr nofun
  | float second =>
    simp only [operand, stepped]
    exact Binary64.equals_ofInt_short short

end Progression

theorem Sequence.nextValue_eq {sequence : Sequence} {progression : Progression}
    (goesOn : sequence.progression = some progression) (current : Number) :
    sequence.nextValue (some current) = (progression.next current).mapError .number := by
  simp only [nextValue, goesOn]

end Progressions
