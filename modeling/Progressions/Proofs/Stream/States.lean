import Progressions.Event
import Progressions.Proofs.Stream.Moves
import Progressions.Proofs.Stream.Scripts

/-!
# States of an iterator

What a state holds is tied to the values that came out so far.  `Sequence.Accounts` says how, for
every phase; `Stream.Advances` says what a move can do to the state, whether it gives a value, finds
the end or fails.  Both are read off `Stands`, which every state that a fresh one becomes satisfies.

A move that fails leaves a state whose next move fails in the same way, although it may have
switched to progressing before the step could not be applied (`advance_of_failing`).  So a failure
lasts, and the values before it are all that ever come out.
-/

set_option autoImplicit false

namespace Progressions

def Stream.Phase.rank : Stream.Phase → Nat
  | .replaying => 0
  | .progressing => 1
  | .exhausted => 2

def Stream.valueOf : Except StreamError (Option Number) → Option Number
  | .ok found => found
  | .error _ => none

namespace Sequence

/-- The state that a fresh one becomes by a number of moves. -/
def stateAfter (sequence : Sequence) (count : Nat) : Stream.State :=
  ((Iterator.ofSequence sequence).pulls count).2.state

def returned (sequence : Sequence) (count : Nat) : List Number :=
  (sequence.outcomes count).filterMap Stream.valueOf

/-- Values that a sequence goes on with behind its numbers, none of them beyond the bound, and the
value that the next step is applied to. -/
inductive Progressed (sequence : Sequence) : List Number → Number → Prop
  | start : Progressed sequence [] sequence.last
  | moved {terms : List Number} {current value : Number}
    (before : Progressed sequence terms current)
    (next : sequence.nextValue (some current) = .ok value)
    (inside : sequence.bound.isSome = true → sequence.exceedsBound value = .ok false) :
    Progressed sequence (terms ++ [value]) value

/-- What a state has to do with the values that came out so far. -/
structure Accounts (sequence : Sequence) (values : List Number) (state : Stream.State) : Prop where
  nonneg : 0 ≤ state.index
  within : state.index ≤ sequence.numbers.length
  replaying : state.phase = .replaying → state.current = none ∧ state.index = values.length
  /-- The current value is the last one that came out, a number of the sequence at first. -/
  progressing : state.phase = .progressing → sequence.hasEllipsis = true ∧
    state.index = sequence.numbers.length ∧ state.current = values.getLast? ∧
      ∃ terms current, values = sequence.numbers ++ terms ∧ Progressed sequence terms current ∧
        state.current = some current
  /-- The current value is the first one beyond the bound, if there are values beyond it. -/
  exhausted : state.phase = .exhausted → state.index = sequence.numbers.length ∧
    ((sequence.hasEllipsis = false ∧ state.current = none) ∨
      sequence.bound.isSome = true ∧ ∃ terms current value, values = sequence.numbers ++ terms ∧
        Progressed sequence terms current ∧ sequence.nextValue (some current) = .ok value ∧
          sequence.exceedsBound value = .ok true ∧ state.current = some value)

end Sequence

/-- What one move does to a state. -/
structure Stream.Advances (sequence : Sequence) (state : Stream.State) (pull : Stream.Pull) :
    Prop where
  forward : state.phase.rank ≤ pull.state.phase.rank
  nothing : pull.outcome = .ok none ↔ pull.state.phase = .exhausted
  kept : state.phase = .exhausted → pull.state = state
  /-- The end is recorded by the move that comes to it, and by no other. -/
  recorded : pull.events sequence =
    if state.phase ≠ .exhausted ∧ pull.state.phase = .exhausted then
      [.exhausted sequence.numbers sequence.numbers.length] else []

namespace Sequence

variable {sequence : Sequence} {progression : Progression} {count : Nat} {state : Stream.State}

theorem stands_stateAfter (sequence : Sequence) (count : Nat) :
    Stands sequence count (sequence.stateAfter count) := by
  have start : Stands sequence 0 .fresh := .replaying (Nat.zero_le _)
  obtain ⟨after, pulled, stands⟩ := pulls_stand count start
  have isAfter : sequence.stateAfter count = after :=
    congrArg Iterator.state pulled
  rw [Nat.zero_add] at stands
  rw [isAfter]
  exact stands

/-! ## Values so far -/

theorem exceedsBound_eq (goesOn : sequence.progression = some progression)
    (bounded : sequence.bound.isSome = true) (value : Number) :
    sequence.exceedsBound value = .ok (progression.isBeyond value) := by
  simp only [bound, goesOn, Option.bind_some] at bounded
  obtain ⟨limit, limited⟩ := Option.isSome_iff_exists.mp bounded
  simp only [exceedsBound, goesOn, limited, Progression.isBeyond]

theorem bounded_of_isBeyond {value : Number} (goesOn : sequence.progression = some progression)
    (beyond : progression.isBeyond value = true) : sequence.bound.isSome = true := by
  cases limited : progression.bound with
  | none => simp [Progression.isBeyond, limited] at beyond
  | some limit => simp [bound, goesOn, limited]

theorem nextValue_of_ok {current value : Number} (goesOn : sequence.progression = some progression)
    (moves : progression.next current = .ok value) :
    sequence.nextValue (some current) = .ok value := by
  rw [nextValue_eq goesOn, moves]
  rfl

theorem yields_numbers (sequence : Sequence) : sequence.Yields sequence.numbers := by
  have given := (outcomes_follow_reference sequence sequence.numbers.length).2.1
  rw [List.take_length] at given
  rw [Yields, ← given, List.take_of_length_le]
  simp [outcomes_eq_reference]

theorem exists_progressed {terms : Nat} {current : Number}
    (goesOn : sequence.progression = some progression)
    (reached : progression.term sequence.last terms = .ok current)
    (inside : progression.endsWithin sequence.last terms = false) :
    ∃ values, values.length = terms ∧ Progressed sequence values current ∧
      sequence.Yields (sequence.numbers ++ values) := by
  induction terms generalizing current with
  | zero =>
    obtain rfl := Except.ok.inj reached
    refine ⟨[], rfl, .start, ?_⟩
    rw [List.append_nil]
    exact yields_numbers sequence
  | succ terms inductionHypothesis =>
    have given := (reference_eq_value_iff goesOn).mpr ⟨reached, inside⟩
    rw [Progression.endsWithin_succ_of_ok reached, Bool.or_eq_false_iff] at inside
    obtain ⟨previous, reachedBefore, moves⟩ := exists_of_bind_eq_ok reached
    obtain ⟨values, length, progressed, yields⟩ := inductionHypothesis reachedBefore inside.1
    refine ⟨values ++ [current], by simp [length], .moved progressed ?_ ?_, ?_⟩
    · exact nextValue_of_ok goesOn moves
    · intro bounded
      rw [exceedsBound_eq goesOn bounded, inside.2]
    · rw [← List.append_assoc]
      apply yields_snoc yields
      rw [List.length_append, length]
      exact given

theorem Progressed.getLast?_eq {terms : List Number} {current : Number}
    (progressed : Progressed sequence terms current) :
    (sequence.numbers ++ terms).getLast? = some current := by
  cases progressed with
  | start => simp [last, List.getLast?_eq_some_getLast sequence.nonempty]
  | moved before next inside => simp

theorem returned_eq {values : List Number} {idle : Nat}
    {ending : Except StreamError (Option Number)} (notValue : ∀ value, ending ≠ .ok (some value))
    (given : sequence.outcomes count = values.map (.ok ∘ some) ++ List.replicate idle ending) :
    sequence.returned count = values := by
  have nothing : Stream.valueOf ending = none := by
    cases ending with
    | error cause => rfl
    | ok found =>
      cases found with
      | none => rfl
      | some value => exact absurd rfl (notValue value)
  rw [returned, given, List.filterMap_append, List.filterMap_replicate_of_none nothing,
    List.append_nil, List.filterMap_map]
  exact List.filterMap_some

theorem outcomes_replaying (within : count ≤ sequence.numbers.length) :
    sequence.outcomes count = (sequence.numbers.take count).map (.ok ∘ some) := by
  have given := (outcomes_follow_reference sequence count).2.1
  rwa [List.take_of_length_le (by simpa [outcomes_eq_reference] using within)] at given

theorem outcomes_failing {terms : Nat} (stalled : Nat) {current : Number} {cause : NumberError}
    {values : List Number} (goesOn : sequence.progression = some progression)
    (reached : progression.term sequence.last terms = .ok current)
    (inside : progression.endsWithin sequence.last terms = false)
    (failing : progression.next current = .error cause) (length : values.length = terms)
    (yields : sequence.Yields (sequence.numbers ++ values)) :
    sequence.outcomes (sequence.numbers.length + terms + stalled) =
      (sequence.numbers ++ values).map (.ok ∘ some) ++
        List.replicate stalled (.error (.number cause)) := by
  rw [Yields, List.length_append, length] at yields
  rw [outcomes_add, yields]
  congr 1
  rw [List.eq_replicate_iff, List.length_map, List.length_range]
  refine ⟨rfl, ?_⟩
  intro outcome member
  obtain ⟨place, -, rfl⟩ := List.mem_map.mp member
  rw [reference_failing goesOn reached inside failing]
  rfl

theorem returned_progressing {terms stalled : Nat} {current : Number} {values : List Number}
    (goesOn : sequence.progression = some progression)
    (reached : progression.term sequence.last terms = .ok current)
    (inside : progression.endsWithin sequence.last terms = false)
    (stalls : 0 < stalled → ∃ cause, progression.next current = .error cause)
    (length : values.length = terms) (yields : sequence.Yields (sequence.numbers ++ values)) :
    sequence.returned (sequence.numbers.length + terms + stalled) = sequence.numbers ++ values := by
  cases moves : progression.next current with
  | error cause =>
    have given := outcomes_failing stalled goesOn reached inside moves length yields
    exact returned_eq (by simp) given
  | ok next =>
    -- The step can be applied, so no move has failed yet.
    have first : stalled = 0 := by
      by_contra again
      obtain ⟨cause, failing⟩ := stalls (Nat.pos_of_ne_zero again)
      rw [moves] at failing
      cases failing
    have given : sequence.outcomes (sequence.numbers.length + terms + stalled) =
        (sequence.numbers ++ values).map (.ok ∘ some) ++ List.replicate 0 (.ok none) := by
      rw [Yields, List.length_append, length] at yields
      rw [first, Nat.add_zero, yields, List.replicate_zero, List.append_nil]
    exact returned_eq (by simp) given

theorem returned_passed {terms : Nat} {beyondValue : Number} {values : List Number} (calls : Nat)
    (goesOn : sequence.progression = some progression)
    (reached : progression.term sequence.last (terms + 1) = .ok beyondValue)
    (beyond : progression.isBeyond beyondValue = true)
    (length : values.length = terms) (yields : sequence.Yields (sequence.numbers ++ values)) :
    sequence.returned (sequence.numbers.length + terms + calls + 1) =
      sequence.numbers ++ values := by
  have nothing : sequence.reference (sequence.numbers ++ values).length = .ok none := by
    rw [List.length_append, length]
    exact reference_passed goesOn reached beyond 0
  have given := ends_of_reference yields nothing (calls + 1)
  rw [List.length_append, length] at given
  exact returned_eq (by simp) given

theorem accounts_of_stands (stands : Stands sequence count state) :
    Accounts sequence (sequence.returned count) state := by
  cases stands with
  | replaying within =>
    have given : sequence.outcomes count =
        (sequence.numbers.take count).map (.ok ∘ some) ++ List.replicate 0 (.ok none) := by
      rw [outcomes_replaying within, List.replicate_zero, List.append_nil]
    rw [returned_eq (by simp) given]
    constructor
    case nonneg => simp
    case within => simpa using within
    case replaying => simp [within]
    case progressing => simp
    case exhausted => simp
  | ended itemized past =>
    have nothing : sequence.reference sequence.numbers.length = .ok none :=
      reference_itemized itemized (Nat.le_refl _)
    obtain ⟨calls, rfl⟩ := Nat.exists_eq_add_of_le (Nat.le_of_lt past)
    have given := ends_of_reference (yields_numbers sequence) nothing calls
    rw [returned_eq (by simp) given]
    constructor
    case nonneg => simp
    case within => simp
    case replaying => simp
    case progressing => simp
    case exhausted => simp [hasEllipsis, itemized]
  | progressing terms stalled goesOn reached inside stalls moved =>
    obtain ⟨values, length, progressed, yields⟩ := exists_progressed goesOn reached inside
    rw [returned_progressing goesOn reached inside stalls length yields]
    constructor
    case nonneg => simp
    case within => simp
    case replaying => simp
    case progressing =>
      intro _
      exact ⟨by simp [hasEllipsis, goesOn], rfl, progressed.getLast?_eq.symm,
        values, _, rfl, progressed, rfl⟩
    case exhausted => simp
  | passed terms calls goesOn reached inside beyond =>
    obtain ⟨current, reachedBefore, moves⟩ := exists_of_bind_eq_ok reached
    obtain ⟨values, length, progressed, yields⟩ := exists_progressed goesOn reachedBefore inside
    have bounded := bounded_of_isBeyond goesOn beyond
    rw [returned_passed calls goesOn reached beyond length yields]
    constructor
    case nonneg => simp
    case within => simp
    case replaying => simp
    case progressing => simp
    case exhausted =>
      intro _
      refine ⟨rfl, .inr ⟨bounded, values, current, _, rfl, progressed, ?_, ?_, rfl⟩⟩
      · exact nextValue_of_ok goesOn moves
      · rw [exceedsBound_eq goesOn bounded, beyond]

/-! ## One move -/

theorem advances_exhausted (exhausted : state.phase = .exhausted) :
    Stream.Advances sequence state (state.advance sequence) := by
  have advanced : state.advance sequence = ⟨.ok none, state, false⟩ := by
    rw [Stream.State.advance, exhausted]
  rw [advanced]
  constructor
  case forward => exact Nat.le_refl _
  case nothing => simp [exhausted]
  case kept => simp
  case recorded => simp [Stream.Pull.events, exhausted]

theorem advances_progress {current : Number} (goesOn : sequence.progression = some progression)
    (early : state.phase ≠ .exhausted) :
    Stream.Advances sequence state
      (Stream.State.progress ⟨sequence.numbers.length, some current, .progressing⟩ sequence) := by
  have forward : state.phase.rank ≤ 1 := by
    cases phase : state.phase with
    | replaying => simp [Stream.Phase.rank]
    | progressing => simp [Stream.Phase.rank]
    | exhausted => exact absurd phase early
  cases moves : progression.next current with
  | error cause =>
    rw [progress_of_error goesOn _ moves]
    constructor
    case forward => exact forward
    case nothing => simp
    case kept => simp [early]
    case recorded => simp [Stream.Pull.events]
  | ok value =>
    rw [progress_of_ok goesOn _ moves]
    cases progression.isBeyond value with
    | true =>
      constructor
      case forward => exact Nat.le_succ_of_le forward
      case nothing => simp
      case kept => simp [early]
      case recorded => simp [Stream.Pull.events, early]
    | false =>
      constructor
      case forward => exact forward
      case nothing => simp
      case kept => simp [early]
      case recorded => simp [Stream.Pull.events]

theorem advances_of_stands (stands : Stands sequence count state) :
    Stream.Advances sequence state (state.advance sequence) := by
  cases stands with
  | replaying within =>
    by_cases left : count < sequence.numbers.length
    · rw [advance_number left]
      constructor
      case forward => exact Nat.le_refl _
      case nothing => simp
      case kept => simp
      case recorded => simp [Stream.Pull.events]
    · obtain rfl : count = sequence.numbers.length := by omega
      cases goesOn : sequence.progression with
      | none =>
        rw [advance_itemized goesOn]
        constructor
        case forward => exact Nat.zero_le _
        case nothing => simp
        case kept => simp
        case recorded => simp [Stream.Pull.events]
      | some progression =>
        rw [advance_switching goesOn]
        exact advances_progress goesOn (by simp)
  | ended itemized past => exact advances_exhausted rfl
  | progressing terms stalled goesOn reached inside stalls moved =>
    exact advances_progress goesOn (by simp)
  | passed terms calls goesOn reached inside beyond => exact advances_exhausted rfl

/-! ## Runs -/

theorem pulls_exhausted (length : Nat) (stands : Stands sequence count state)
    (exhausted : state.phase = .exhausted) :
    (Iterator.pulls length ⟨sequence, state⟩).2 = ⟨sequence, state⟩ := by
  induction length with
  | zero => rfl
  | succ length inductionHypothesis =>
    have kept := (advances_of_stands stands).kept exhausted
    simp only [Iterator.pulls, Iterator.pull, kept]
    exact inductionHypothesis

theorem events_of_stands (length : Nat) (stands : Stands sequence count state) :
    (Iterator.pulls length ⟨sequence, state⟩).1.flatMap (·.events sequence) =
      if state.phase ≠ .exhausted ∧
          (Iterator.pulls length ⟨sequence, state⟩).2.state.phase = .exhausted then
        [.exhausted sequence.numbers sequence.numbers.length] else [] := by
  induction length generalizing count state with
  | zero => simp [Iterator.pulls]
  | succ length inductionHypothesis =>
    have standsNext := (advance_stands stands).2
    have advances := advances_of_stands stands
    have later := inductionHypothesis standsNext
    simp only [Iterator.pulls, Iterator.pull, List.flatMap_cons, advances.recorded, later]
    by_cases exhausted : (state.advance sequence).state.phase = .exhausted
    · have last := pulls_exhausted length standsNext exhausted
      simp [last, exhausted]
    · have early : state.phase ≠ .exhausted := by
        intro before
        rw [advances.kept before] at exhausted
        exact exhausted before
      simp [exhausted, early]

/-- Every state that a fresh one becomes accounts for the values so far, the end has been recorded
once if it is exhausted and not at all before, and the next move goes forward. -/
theorem stateAfter_accounts (sequence : Sequence) (count : Nat) :
    Accounts sequence (sequence.returned count) (sequence.stateAfter count) ∧
      ((Iterator.ofSequence sequence).pulls count).1.flatMap (·.events sequence) =
        (if (sequence.stateAfter count).phase = .exhausted then
          [.exhausted sequence.numbers sequence.numbers.length] else []) ∧
      Stream.Advances sequence (sequence.stateAfter count)
        ((sequence.stateAfter count).advance sequence) := by
  have start : Stands sequence 0 .fresh := .replaying (Nat.zero_le _)
  have stands := stands_stateAfter sequence count
  refine ⟨accounts_of_stands stands, ?_, advances_of_stands stands⟩
  have events := events_of_stands count start
  have early : Stream.State.fresh.phase ≠ .exhausted := by simp [Stream.State.fresh]
  simp only [early, ne_eq, not_false_eq_true, true_and] at events
  exact events

/-! ## Failures -/

/-- The state that a failing move leaves: it stands at the value the step cannot be applied to. -/
def failedAt (sequence : Sequence) (current : Number) : Stream.State :=
  ⟨sequence.numbers.length, some current, .progressing⟩

/-- What a failing move was about: the term it stands at, and where its state came from. -/
structure Failing (sequence : Sequence) (count : Nat) (state : Stream.State) (cause : StreamError)
    (values : List Number) (current : Number) : Prop where
  progressed : Progressed sequence values current
  failing : sequence.nextValue (some current) = .error cause
  advanced : state.advance sequence = ⟨.error cause, failedAt sequence current, false⟩
  before : state = failedAt sequence current ∨
    state = ⟨sequence.numbers.length, none, .replaying⟩ ∧ current = sequence.last
  moves : sequence.numbers.length + values.length ≤ count
  settles : ∀ further, sequence.outcomes (sequence.numbers.length + values.length + further) =
    (sequence.numbers ++ values).map (.ok ∘ some) ++ List.replicate further (.error cause)

theorem failing_of_progress {terms : Nat} {current : Number} {cause : StreamError}
    (goesOn : sequence.progression = some progression)
    (reached : progression.term sequence.last terms = .ok current)
    (inside : progression.endsWithin sequence.last terms = false)
    (moves : sequence.numbers.length + terms ≤ count)
    (advanced : state.advance sequence = Stream.State.progress (failedAt sequence current) sequence)
    (before : state = failedAt sequence current ∨
      state = ⟨sequence.numbers.length, none, .replaying⟩ ∧ current = sequence.last)
    (failed : (state.advance sequence).outcome = .error cause) :
    ∃ values current, Failing sequence count state cause values current := by
  rw [advanced, failedAt] at failed
  cases applied : progression.next current with
  | ok value =>
    rw [progress_of_ok goesOn _ applied] at failed
    cases beyond : progression.isBeyond value with
    | true => simp [beyond] at failed
    | false => simp [beyond] at failed
  | error numberCause =>
    rw [progress_of_error goesOn _ applied] at failed
    obtain rfl := Except.error.inj failed
    obtain ⟨values, length, progressed, yields⟩ := exists_progressed goesOn reached inside
    refine ⟨values, current, progressed, ?_, ?_, before, ?_, ?_⟩
    · rw [nextValue_eq goesOn, applied]
      rfl
    · rw [advanced, failedAt, progress_of_error goesOn _ applied]
    · rw [length]
      exact moves
    · intro further
      rw [length]
      exact outcomes_failing further goesOn reached inside applied length yields

theorem failing_of_stands {cause : StreamError} (stands : Stands sequence count state)
    (failed : (state.advance sequence).outcome = .error cause) :
    ∃ values current, Failing sequence count state cause values current := by
  cases stands with
  | replaying within =>
    by_cases left : count < sequence.numbers.length
    · rw [advance_number left] at failed
      cases failed
    · obtain rfl : count = sequence.numbers.length := by omega
      cases goesOn : sequence.progression with
      | none =>
        rw [advance_itemized goesOn] at failed
        cases failed
      | some progression =>
        have reached : progression.term sequence.last 0 = .ok sequence.last := rfl
        exact failing_of_progress goesOn reached rfl (Nat.le_refl _) (advance_switching goesOn)
          (.inr ⟨rfl, rfl⟩) failed
  | ended itemized past => cases failed
  | progressing terms stalled goesOn reached inside stalls moved =>
    exact failing_of_progress goesOn reached inside (Nat.le_add_right _ _) rfl (.inl rfl) failed
  | passed terms calls goesOn reached inside beyond => cases failed

theorem pulls_failedAt {current : Number} {cause : StreamError}
    (failing : sequence.nextValue (some current) = .error cause) (further : Nat) :
    Iterator.pulls further ⟨sequence, failedAt sequence current⟩ =
      (List.replicate further ⟨.error cause, failedAt sequence current, false⟩,
        ⟨sequence, failedAt sequence current⟩) := by
  have again : (failedAt sequence current).advance sequence =
      ⟨.error cause, failedAt sequence current, false⟩ := by
    simp only [Stream.State.advance, Stream.State.progress, failedAt, failing]
  induction further with
  | zero => rfl
  | succ further inductionHypothesis =>
    simp only [Iterator.pulls, Iterator.pull, again, inductionHypothesis, List.replicate_succ]

/-- A failure lasts: what moves give behind it, what it leaves of the state, and what came before
it. -/
structure Lasts (sequence : Sequence) (count : Nat) (cause : StreamError) (after : Stream.State) :
    Prop where
  again : ∀ further, Iterator.pulls further ⟨sequence, after⟩ =
    (List.replicate further ⟨.error cause, after, false⟩, ⟨sequence, after⟩)
  index : after.index = (sequence.stateAfter count).index
  /-- At most the switch to progressing from the last number is left of a failing move. -/
  state : after = sequence.stateAfter count ∨ (sequence.stateAfter count).phase = .replaying ∧
    after = ⟨(sequence.stateAfter count).index, some sequence.last, .progressing⟩
  /-- Each term up to the failure came out once, and nothing came out behind it. -/
  values : ∃ terms current, Progressed sequence terms current ∧ after.current = some current ∧
    sequence.nextValue (some current) = .error cause ∧
      sequence.returned count = sequence.numbers ++ terms ∧
        ∀ further, sequence.outcomes (sequence.numbers.length + terms.length + further) =
          (sequence.numbers ++ terms).map (.ok ∘ some) ++ List.replicate further (.error cause)

/-- Once a move fails, all later ones fail with the same error and leave the state as it is.  The
failing move itself changes at most the phase and the current value, and no value is lost or
repeated by it. -/
theorem failure_lasts {cause : StreamError}
    (failed : ((sequence.stateAfter count).advance sequence).outcome = .error cause) :
    Lasts sequence count cause ((sequence.stateAfter count).advance sequence).state := by
  obtain ⟨values, current, progressed, failing, advanced, before, moves, settles⟩ :=
    failing_of_stands (stands_stateAfter sequence count) failed
  obtain ⟨stalled, rfl⟩ := Nat.exists_eq_add_of_le moves
  rw [advanced]
  constructor
  case again => exact pulls_failedAt failing
  case index =>
    rcases before with same | ⟨switched, -⟩
    · rw [same]
    · rw [switched]
      rfl
  case state =>
    rcases before with same | ⟨switched, isLast⟩
    · exact .inl same.symm
    · rw [switched, isLast]
      exact .inr ⟨rfl, rfl⟩
  case values =>
    have sofar := returned_eq (by simp) (settles stalled)
    exact ⟨values, current, progressed, rfl, failing, sofar, settles⟩

/-- One number of more than a thousand binary digits, which no binary64 step can be added to. -/
def tooLarge : Sequence :=
  ⟨[.int (2 ^ 1024)], some ⟨.arithmetic, .float (Binary64.ofInt 1), none⟩, List.cons_ne_nil _ _⟩

theorem failure_lasts_tooLarge :
    ((tooLarge.stateAfter 1).advance tooLarge).outcome =
        .error (.number .operandTooLarge) ∧
      Lasts tooLarge 1 (.number .operandTooLarge)
        ((tooLarge.stateAfter 1).advance tooLarge).state := by
  have failed : ((tooLarge.stateAfter 1).advance tooLarge).outcome =
      .error (.number .operandTooLarge) := by
    decide +kernel
  exact ⟨failed, failure_lasts failed⟩

end Sequence

end Progressions
