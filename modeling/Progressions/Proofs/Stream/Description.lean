import Progressions.Description
import Progressions.Proofs.Stream.Reference

/-!
# The stream of a description

A description says by itself what a sequence hands out: its numbers, then what its step makes of
the last of them over and over, up to the first value beyond the bound.  Only the entries of the
description are looked at here, and what they say is the stream of every sequence so described.
-/

set_option autoImplicit false

namespace Progressions

namespace Value

/-- What stands under a key of an object. -/
def entry? (description : Value) (key : String) : Option Value := description.entries.lookup key

def number? : Value → Option Number
  | .number value => some value
  | _ => none

def items : Value → List Value
  | .list items => items
  | _ => []

/-- The numbers that a description lists. -/
def replayed (description : Value) : List Number :=
  ((description.entry? "numbers").map items).getD [] |>.filterMap number?

def increment? (description : Value) : Option Number := description.entry? "inc" >>= number?

def limit? (description : Value) : Option Number := description.entry? "last_number" >>= number?

def hasType (description : Value) (type : String) : Bool :=
  match description.entry? "type" with
  | some (.text found) => found == type
  | _ => false

/-- What comes behind a value: the sum with the increment or the product, as the type says. -/
def follow? (description : Value) (value : Number) : Option (Except NumberError Number) := do
  let increment ← description.increment?
  if description.hasType "arithmetic" then some (value.add increment)
  else if description.hasType "geometric" then some (value.mul increment)
  else none

/-- The increment makes values rise: it adds no less than zero, or multiplies by no less than
one. -/
def rises (description : Value) (increment : Number) : Bool :=
  increment.atLeast (if description.hasType "arithmetic" then .int 0 else .int 1)

/-- The value lies beyond the limit in the direction of the increment. -/
def stops (description : Value) (value : Number) : Bool :=
  match description.increment?, description.limit? with
  | some increment, some limit =>
    if description.rises increment then value.greater limit else value.less limit
  | _, _ => false

/-- What a number of moves give behind a value. -/
def progress (description : Value) : Nat → Number → List (Except NumberError (Option Number))
  | 0, _ => []
  | count + 1, value =>
    match description.follow? value with
    | none => List.replicate (count + 1) (.ok none)
    | some (.error cause) => List.replicate (count + 1) (.error cause)
    | some (.ok next) =>
      if description.stops next then List.replicate (count + 1) (.ok none)
      else .ok (some next) :: description.progress count next

/-- What a number of moves give from the start. -/
def outcomes (description : Value) (count : Nat) : List (Except NumberError (Option Number)) :=
  let numbers := description.replayed
  let later := count - numbers.length
  (numbers.take count).map (.ok ∘ some) ++
    match numbers.getLast? with
    | some last => description.progress later last
    | none => List.replicate later (.ok none)

theorem number?_ofOption (value : Option Number) : (ofOption value).number? = value := by
  cases value <;> rfl

end Value

namespace Sequence

variable {sequence : Sequence}

/-! ## The entries of a description -/

theorem entry?_numbers (sequence : Sequence) :
    sequence.describe.entry? "numbers" = some (.list (sequence.numbers.map .number)) := by
  simp [Value.entry?, describe, Value.entries]

theorem entry?_type (sequence : Sequence) :
    sequence.describe.entry? "type" = some (.text sequence.kind.label) := by
  cases goesOn : sequence.hasEllipsis <;>
    simp [Value.entry?, describe, Value.entries, goesOn, boundKey, List.lookup_cons]

theorem entry?_inc (sequence : Sequence) :
    sequence.describe.entry? "inc" = some (.ofOption sequence.step) := by
  cases goesOn : sequence.hasEllipsis <;>
    simp [Value.entry?, describe, Value.entries, goesOn, boundKey, stepKey, List.lookup_cons]

theorem entry?_last_number (sequence : Sequence) :
    sequence.describe.entry? "last_number" =
      if sequence.hasEllipsis then some (.ofOption sequence.bound) else none := by
  cases goesOn : sequence.hasEllipsis <;>
    simp [Value.entry?, describe, Value.entries, goesOn, boundKey, stepKey, List.lookup_cons]

theorem replayed_describe (sequence : Sequence) :
    sequence.describe.replayed = sequence.numbers := by
  simp [Value.replayed, entry?_numbers, Value.items, List.filterMap_map, Function.comp_def,
    Value.number?]

theorem increment?_describe (sequence : Sequence) :
    sequence.describe.increment? = sequence.step := by
  simp [Value.increment?, entry?_inc, Value.number?_ofOption]

theorem limit?_describe (sequence : Sequence) : sequence.describe.limit? = sequence.bound := by
  cases goesOn : sequence.progression <;>
    simp [Value.limit?, entry?_last_number, Value.number?_ofOption, hasEllipsis, bound, goesOn]

theorem hasType_describe (sequence : Sequence) (type : String) :
    sequence.describe.hasType type = (sequence.kind.label == type) := by
  simp [Value.hasType, entry?_type]

/-! ## What the entries say -/

theorem follow?_describe_itemized (itemized : sequence.progression = none) (value : Number) :
    sequence.describe.follow? value = none := by
  simp [Value.follow?, increment?_describe, step, itemized]

section Progressing

variable {progression : Progression} (goesOn : sequence.progression = some progression)

include goesOn

theorem hasType_arithmetic :
    sequence.describe.hasType "arithmetic" = (progression.pattern == .arithmetic) := by
  rw [hasType_describe, kind, goesOn]
  cases pattern : progression.pattern <;> simp [SequenceKind.ofPattern, SequenceKind.label, pattern]

theorem follow?_describe (value : Number) :
    sequence.describe.follow? value = some (progression.next value) := by
  cases pattern : progression.pattern <;>
    simp [Value.follow?, increment?_describe, step, goesOn, hasType_describe, kind,
      pattern, SequenceKind.ofPattern, SequenceKind.label, Progression.next]

theorem stops_describe (value : Number) :
    sequence.describe.stops value = progression.isBeyond value := by
  cases limited : progression.bound <;> cases pattern : progression.pattern <;>
    simp [Value.stops, Value.rises, increment?_describe, limit?_describe, step, bound, goesOn,
      limited, hasType_arithmetic goesOn, pattern, Progression.isBeyond, Progression.passes,
      Progression.rises, Progression.pivot]

/-! ## What the description hands out -/

/-- Behind a term that is not beyond the bound the description hands out the rest of the stream. -/
theorem progress_describe (count : Nat) {terms : Nat} {value : Number}
    (reached : progression.term sequence.last terms = .ok value)
    (inside : progression.endsWithin sequence.last terms = false) :
    sequence.describe.progress count value =
      (List.range count).map fun place =>
        sequence.reference (sequence.numbers.length + terms + place) := by
  induction count generalizing terms value with
  | zero => rfl
  | succ count inductionHypothesis =>
    rw [Value.progress, follow?_describe goesOn]
    cases moving : progression.next value with
    | error cause =>
      have constant : (fun place => sequence.reference (sequence.numbers.length + terms + place)) =
          fun _ => .error cause :=
        funext (reference_failing goesOn reached inside moving)
      rw [constant, List.map_const', List.length_range]
    | ok next =>
      have reachedNext := Progression.term_succ_of_ok reached
      rw [moving] at reachedNext
      simp only [stops_describe goesOn]
      cases beyond : progression.isBeyond next with
      | true =>
        have constant :
            (fun place => sequence.reference (sequence.numbers.length + terms + place)) =
              fun _ => .ok none :=
          funext (reference_passed goesOn reachedNext beyond)
        rw [constant, List.map_const', List.length_range]
        rfl
      | false =>
        have insideNext := Progression.endsWithin_succ_of_ok reachedNext
        rw [inside, beyond, Bool.false_or] at insideNext
        have first := reference_term goesOn terms
        rw [insideNext, reachedNext] at first
        rw [List.range_succ_eq_map, List.map_cons, List.map_map, Nat.add_zero (_ + terms), first,
          if_neg Bool.false_ne_true, inductionHypothesis reachedNext insideNext]
        refine congrArg (_ :: ·) (List.map_congr_left fun place _ => ?_)
        simp only [Function.comp, Nat.succ_eq_add_one, Nat.add_assoc, Nat.add_comm 1]

end Progressing

theorem progress_describe_itemized (itemized : sequence.progression = none) (count : Nat)
    (value : Number) :
    sequence.describe.progress count value = List.replicate count (.ok none) := by
  cases count with
  | zero => rfl
  | succ count => rw [Value.progress, follow?_describe_itemized itemized]

theorem progress_last (sequence : Sequence) (count : Nat) :
    sequence.describe.progress count sequence.last =
      (List.range count).map fun place =>
        sequence.reference (sequence.numbers.length + place) := by
  cases goesOn : sequence.progression with
  | none =>
    have constant : (fun place => sequence.reference (sequence.numbers.length + place)) =
        fun _ => .ok none :=
      funext fun place => reference_itemized goesOn (Nat.le_add_right _ place)
    rw [progress_describe_itemized goesOn, constant, List.map_const', List.length_range]
  | some progression =>
    have start : progression.term sequence.last 0 = .ok sequence.last := rfl
    exact progress_describe goesOn count start rfl

theorem map_reference_range {count : Nat} (within : count ≤ sequence.numbers.length) :
    (List.range count).map sequence.reference = (sequence.numbers.take count).map (.ok ∘ some) := by
  refine List.ext_getElem (by simp [within]) ?_
  intro place early _
  have inNumbers : place < sequence.numbers.length := by
    simp at early
    omega
  simp [reference_of_lt inNumbers]

theorem outcomes_describe_eq_reference (sequence : Sequence) (count : Nat) :
    sequence.describe.outcomes count = (List.range count).map sequence.reference := by
  have last : sequence.numbers.getLast? = some sequence.last :=
    List.getLast?_eq_some_getLast sequence.nonempty
  rw [Value.outcomes, replayed_describe]
  simp only [last, progress_last]
  rcases Nat.le_total count sequence.numbers.length with within | past
  · rw [map_reference_range within, Nat.sub_eq_zero_of_le within, List.range_zero, List.map_nil,
      List.append_nil]
  · obtain ⟨later, rfl⟩ := Nat.exists_eq_add_of_le past
    rw [Nat.add_sub_cancel_left, List.range_add, List.map_append, List.map_map,
      map_reference_range (Nat.le_refl _), List.take_of_length_le past, List.take_length]
    rfl

/-- A description hands out what an iterator of the sequence hands out. -/
theorem outcomes_describe (sequence : Sequence) (count : Nat) :
    (sequence.describe.outcomes count).map (.mapError .number) = sequence.outcomes count := by
  rw [outcomes_describe_eq_reference, outcomes_eq_reference, List.map_map]
  rfl

end Sequence

end Progressions
