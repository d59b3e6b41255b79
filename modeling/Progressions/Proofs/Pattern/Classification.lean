import Progressions.Pattern
import Progressions.Proofs.Number.Operands

/-!
# Classification within and beyond the range

The differences and the ratios of neighbours are compared one after another, so a number too large
to be rounded does harm only where the comparison gets to it: `OverflowsAt` says where.  A list
that does not overflow is classified, or rejected for its pattern.
-/

set_option autoImplicit false

namespace Progressions

namespace Pattern

/-- The difference of two neighbours does not exist. -/
def differenceOverflows (previous current : Number) : Prop := ¬ Number.Compatible current previous

/-- The ratio of two neighbours does not exist, although the first is not zero. -/
def ratioOverflows (previous current : Number) : Prop :=
  previous.isZero = false ∧ ¬ Number.Divisible current previous

/-- A link fails on exactly the neighbours that overflow. -/
structure FailsOn (link : Link) (overflows : Number → Number → Prop) : Prop where
  defined : ∀ previous current, ¬ overflows previous current →
    ∃ found, link previous current = .ok found
  failing : ∀ previous current, overflows previous current →
    ∃ cause, link previous current = .error cause ∧ cause.IsOverflow

theorem difference_failsOn : FailsOn difference differenceOverflows where
  defined previous current inside := by
    obtain ⟨result, found, -⟩ := Number.combine_of_compatible (· - ·) Binary64.sub
      (Decidable.not_not.mp inside)
    exact ⟨some result, by rw [difference, Number.sub_eq_combine, found]; rfl⟩
  failing previous current overflows := by
    have failed := Number.combine_of_not_compatible (· - ·) Binary64.sub overflows
    exact ⟨.operandTooLarge, by rw [difference, Number.sub_eq_combine, failed]; rfl, .inl rfl⟩

theorem ratio_failsOn : FailsOn ratio ratioOverflows where
  defined previous current inside := by
    cases zero : previous.isZero with
    | true => exact ⟨none, by rw [ratio, if_pos zero]⟩
    | false =>
      have divisible : Number.Divisible current previous :=
        Decidable.not_not.mp fun tooLarge => inside ⟨zero, tooLarge⟩
      obtain ⟨quotient, divided⟩ := Number.div_of_divisible zero divisible
      exact ⟨some (.float quotient), by simp [ratio, zero, divided, Except.map]⟩
  failing previous current overflows := by
    obtain ⟨zero, tooLarge⟩ := overflows
    obtain ⟨cause, failed, isOverflow⟩ := Number.div_of_not_divisible zero tooLarge
    exact ⟨cause, by simp [ratio, zero, failed, Except.map], isOverflow⟩

/-- The numbers have a common step, or there are too few of them to have one. -/
def Uniform (link : Link) (numbers : List Number) : Prop :=
  numbers.length < 2 ∨ ∃ step, commonStep link numbers = .ok (some step)

/-- Some numbers at the front are uniform, and the link from the last of them overflows. -/
def OverflowsAt (link : Link) (overflows : Number → Number → Prop) (numbers : List Number) : Prop :=
  ∃ front previous current back, numbers = front ++ current :: back ∧
    front.getLast? = some previous ∧ Uniform link front ∧ overflows previous current

/-! ## Steady runs -/

variable {link : Link} {overflows : Number → Number → Prop} {step previous current : Number}

theorem isSteady_cons {found : Number} {rest : List Number}
    (linked : link previous current = .ok (some found)) :
    isSteady link step previous (current :: rest) =
      if found.equals step then isSteady link step current rest else .ok false := by
  rw [isSteady, linked]
  rfl

theorem isSteady_cons_eq_true {rest : List Number}
    (steady : isSteady link step previous (current :: rest) = .ok true) :
    ∃ found, link previous current = .ok (some found) ∧ found.equals step = true ∧
      isSteady link step current rest = .ok true := by
  cases linked : link previous current with
  | error cause =>
    rw [isSteady, linked] at steady
    cases steady
  | ok found => cases found with
    | none =>
      rw [isSteady, linked] at steady
      cases steady
    | some found =>
      rw [isSteady_cons linked] at steady
      cases same : found.equals step with
      | true =>
        rw [same, if_pos rfl] at steady
        exact ⟨found, rfl, same, steady⟩
      | false =>
        rw [same] at steady
        cases steady

theorem isSteady_append {front rest : List Number}
    (steady : isSteady link step previous front = .ok true) :
    isSteady link step previous (front ++ rest) =
      isSteady link step (front.getLastD previous) rest := by
  induction front generalizing previous with
  | nil => rfl
  | cons current front inductionHypothesis =>
    obtain ⟨found, linked, same, steadyAfter⟩ := isSteady_cons_eq_true steady
    rw [List.cons_append, isSteady_cons linked, if_pos same, inductionHypothesis steadyAfter]
    cases front <;> rfl

theorem isSteady_defined (fails : FailsOn link overflows) {rest : List Number}
    (never : ∀ front current back, rest = front ++ current :: back →
      isSteady link step previous front = .ok true →
        ¬ overflows (front.getLastD previous) current) :
    ∃ answer, isSteady link step previous rest = .ok answer := by
  induction rest generalizing previous with
  | nil => exact ⟨true, rfl⟩
  | cons current rest inductionHypothesis =>
    obtain ⟨found, linked⟩ := fails.defined previous current (never [] current rest rfl rfl)
    cases found with
    | none => exact ⟨false, by rw [isSteady, linked]; rfl⟩
    | some found =>
      rw [isSteady_cons linked]
      cases same : found.equals step with
      | false => exact ⟨false, rfl⟩
      | true =>
        refine inductionHypothesis ?_
        intro front next back shape steady
        have steadyHere : isSteady link step previous (current :: front) = .ok true := by
          rw [isSteady_cons linked, if_pos same, steady]
        have inside := never (current :: front) next back (by rw [shape]; rfl) steadyHere
        cases front <;> exact inside

theorem isSteady_overflow (fails : FailsOn link overflows) {front : List Number}
    (back : List Number)
    (steady : isSteady link step previous front = .ok true)
    (reached : overflows (front.getLastD previous) current) :
    ∃ cause, isSteady link step previous (front ++ current :: back) = .error cause ∧
      cause.IsOverflow := by
  obtain ⟨cause, failed, isOverflow⟩ := fails.failing _ _ reached
  refine ⟨cause, ?_, isOverflow⟩
  rw [isSteady_append steady, isSteady, failed]
  rfl

/-! ## The common step -/

def ifSteady (step : Number) (steady : Except NumberError Bool) :
    Except PatternError (Option Number) :=
  (steady.map fun steady => if steady then some step else none).mapError .number

theorem commonStep_of_linked {first second : Number} {rest : List Number}
    (linked : link first second = .ok (some step)) :
    commonStep link (first :: second :: rest) =
      ifSteady step (isSteady link step second rest) := by
  rw [commonStep, linked]
  change Except.mapError PatternError.number (isSteady link step second rest >>= fun steady =>
    pure (if steady then some step else none)) = _
  cases isSteady link step second rest <;> rfl

theorem commonStep_of_unlinked {first second : Number} {rest : List Number}
    (unlinked : link first second = .ok none) :
    commonStep link (first :: second :: rest) = .ok none := by
  rw [commonStep, unlinked]
  rfl

theorem commonStep_of_error {first second : Number} {rest : List Number} {cause : NumberError}
    (failed : link first second = .error cause) :
    commonStep link (first :: second :: rest) = .error (.number cause) := by
  rw [commonStep, failed]
  rfl

theorem commonStep_eq_some {first second : Number} {rest : List Number}
    (common : commonStep link (first :: second :: rest) = .ok (some step)) :
    link first second = .ok (some step) ∧ isSteady link step second rest = .ok true := by
  cases linked : link first second with
  | error cause =>
    rw [commonStep_of_error linked] at common
    cases common
  | ok found => cases found with
    | none =>
      rw [commonStep_of_unlinked linked] at common
      cases common
    | some found =>
      rw [commonStep_of_linked linked] at common
      cases steady : isSteady link found second rest with
      | error =>
        rw [steady] at common
        cases common
      | ok answer =>
        rw [steady] at common
        cases answer with
        | false => cases common
        | true =>
          cases common
          exact ⟨rfl, steady⟩

theorem commonStep_overflow (fails : FailsOn link overflows) {numbers : List Number}
    (overflowing : OverflowsAt link overflows numbers) :
    ∃ cause, commonStep link numbers = .error (.number cause) ∧ cause.IsOverflow := by
  obtain ⟨front, previous, current, back, rfl, last, uniform, reached⟩ := overflowing
  match front with
  | [] => cases last
  | [first] =>
    cases last
    obtain ⟨cause, failed, isOverflow⟩ := fails.failing _ _ reached
    exact ⟨cause, commonStep_of_error failed, isOverflow⟩
  | first :: second :: middle =>
    rcases uniform with short | ⟨step, common⟩
    · simp only [List.length_cons] at short
      omega
    · obtain ⟨linked, steady⟩ := commonStep_eq_some common
      have lastOfMiddle : middle.getLastD second = previous := by
        simpa [List.getLast?_cons] using last
      rw [← lastOfMiddle] at reached
      obtain ⟨cause, failed, isOverflow⟩ := isSteady_overflow fails back steady reached
      refine ⟨cause, ?_, isOverflow⟩
      rw [List.cons_append, List.cons_append, commonStep_of_linked linked, failed]
      rfl

theorem commonStep_defined (fails : FailsOn link overflows) {numbers : List Number}
    (several : 2 ≤ numbers.length) (inside : ¬ OverflowsAt link overflows numbers) :
    ∃ answer, commonStep link numbers = .ok answer := by
  match numbers with
  | [] | [_] => simp at several
  | first :: second :: rest =>
    have firstInside : ¬ overflows first second := fun reached =>
      inside ⟨[first], first, second, rest, rfl, rfl, .inl (by simp), reached⟩
    obtain ⟨found, linked⟩ := fails.defined first second firstInside
    cases found with
    | none => exact ⟨none, commonStep_of_unlinked linked⟩
    | some step =>
      have restInside : ∀ front current back, rest = front ++ current :: back →
          isSteady link step second front = .ok true →
            ¬ overflows (front.getLastD second) current := by
        rintro front current back rfl steady reached
        have common : commonStep link (first :: second :: front) = .ok (some step) := by
          rw [commonStep_of_linked linked, steady]
          rfl
        exact inside ⟨first :: second :: front, front.getLastD second, current, back, rfl,
          by simp [List.getLast?_cons], .inr ⟨step, common⟩, reached⟩
      obtain ⟨steady, answered⟩ := isSteady_defined fails restInside
      exact ⟨if steady then some step else none, by
        rw [commonStep_of_linked linked, answered]
        rfl⟩

end Pattern

/-! ## Classification -/

namespace Pattern

/-- The comparison of the differences, or that of the ratios after it, gets to neighbours whose
difference or ratio does not exist. -/
def Overflowing (numbers : List Number) : Prop :=
  OverflowsAt difference differenceOverflows numbers ∨
    (commonDifference numbers = .ok none ∧ OverflowsAt ratio ratioOverflows numbers)

variable {numbers : List Number} {location : Option Location}

theorem commonRatio_eq_commonStep (several : 2 ≤ numbers.length) :
    commonRatio numbers = commonStep ratio numbers := by
  match numbers with
  | [] | [_] => simp at several
  | _ :: _ :: _ => rfl

theorem classify_of_commonDifference (several : 2 ≤ numbers.length) {step : Number}
    (common : commonDifference numbers = .ok (some step)) :
    classify numbers location = .ok ⟨.arithmetic, step⟩ := by
  rw [classify, if_neg (Nat.not_lt.mpr several), common]
  rfl

theorem classify_of_commonDifference_error (several : 2 ≤ numbers.length) {cause : PatternError}
    (failed : commonDifference numbers = .error cause) :
    classify numbers location = .error cause := by
  rw [classify, if_neg (Nat.not_lt.mpr several), failed]
  rfl

theorem classify_of_no_difference (several : 2 ≤ numbers.length)
    (noDifference : commonDifference numbers = .ok none) :
    classify numbers location =
      match commonStep ratio numbers with
      | .error cause => .error cause
      | .ok (some step) => .ok ⟨.geometric, step⟩
      | .ok none => .error (.ofNumbers numbers location) := by
  rw [classify, if_neg (Nat.not_lt.mpr several), noDifference, ← commonRatio_eq_commonStep several]
  cases common : commonRatio numbers with
  | error cause => rfl
  | ok answer => cases answer <;> rfl

theorem classify_eq_ok (several : 2 ≤ numbers.length) {classification : Classification}
    (classified : classify numbers location = .ok classification) :
    (classification.pattern = .arithmetic ∧
        commonDifference numbers = .ok (some classification.step)) ∨
      (classification.pattern = .geometric ∧ commonDifference numbers = .ok none ∧
        commonStep ratio numbers = .ok (some classification.step)) := by
  cases compared : commonDifference numbers with
  | error cause =>
    rw [classify_of_commonDifference_error several compared] at classified
    cases classified
  | ok answer => cases answer with
    | some step =>
      rw [classify_of_commonDifference several compared] at classified
      cases classified
      exact .inl ⟨rfl, rfl⟩
    | none =>
      rw [classify_of_no_difference several compared] at classified
      cases related : commonStep ratio numbers with
      | error cause =>
        rw [related] at classified
        cases classified
      | ok answer => cases answer with
        | none =>
          rw [related] at classified
          cases classified
        | some step =>
          rw [related] at classified
          cases classified
          exact .inr ⟨rfl, rfl, rfl⟩

theorem classify_overflow (location : Option Location) (several : 2 ≤ numbers.length)
    (overflowing : Overflowing numbers) :
    ∃ cause, classify numbers location = .error (.number cause) ∧ cause.IsOverflow := by
  rcases overflowing with differences | ⟨noDifference, ratios⟩
  · obtain ⟨cause, failed, isOverflow⟩ := commonStep_overflow difference_failsOn differences
    exact ⟨cause, classify_of_commonDifference_error several failed, isOverflow⟩
  · obtain ⟨cause, failed, isOverflow⟩ := commonStep_overflow ratio_failsOn ratios
    refine ⟨cause, ?_, isOverflow⟩
    rw [classify_of_no_difference several noDifference, failed]

/-- Numbers that do not overflow have a pattern or are rejected for having none. -/
theorem classify_inside (location : Option Location) (several : 2 ≤ numbers.length)
    (inside : ¬ Overflowing numbers) (writable : numbers.all Number.writable = true) :
    (∃ classification, classify numbers location = .ok classification) ∨
      classify numbers location = .error (.unclassifiable numbers location) := by
  obtain ⟨answer, compared⟩ := commonStep_defined difference_failsOn several (inside ∘ .inl)
  cases answer with
  | some step => exact .inl ⟨_, classify_of_commonDifference several compared⟩
  | none =>
    have ratiosInside : ¬ OverflowsAt ratio ratioOverflows numbers := fun ratios =>
      inside (.inr ⟨compared, ratios⟩)
    obtain ⟨answer, related⟩ := commonStep_defined ratio_failsOn several ratiosInside
    rw [classify_of_no_difference several compared, related]
    cases answer with
    | some step => exact .inl ⟨_, rfl⟩
    | none => exact .inr (congrArg _ (if_pos writable))

/-! ## Convertible numbers -/

theorem not_overflowsAt_of_convertible {link : Link} {overflows : Number → Number → Prop}
    (never : ∀ previous current : Number, previous.Convertible → current.Convertible →
      ¬ overflows previous current)
    (convertible : ∀ number ∈ numbers, number.Convertible) :
    ¬ OverflowsAt link overflows numbers := by
  rintro ⟨front, previous, current, back, rfl, last, -, reached⟩
  have previousMember : previous ∈ front := List.mem_of_getLast? last
  exact never previous current
    (convertible previous (List.mem_append_left _ previousMember))
    (convertible current (by simp)) reached

theorem not_overflowing_of_convertible (convertible : ∀ number ∈ numbers, number.Convertible) :
    ¬ Overflowing numbers := by
  rintro (differences | ⟨-, ratios⟩)
  · refine not_overflowsAt_of_convertible ?_ convertible differences
    intro previous current previousConvertible currentConvertible incompatible
    exact incompatible (.of_convertible currentConvertible previousConvertible)
  · refine not_overflowsAt_of_convertible ?_ convertible ratios
    rintro previous current previousConvertible currentConvertible ⟨nonzero, tooLarge⟩
    exact tooLarge (.of_convertible nonzero currentConvertible previousConvertible)

theorem isSteady_last {link : Link} {step previous : Number} {rest : List Number}
    (nonempty : rest ≠ []) (steady : isSteady link step previous rest = .ok true) :
    ∃ before found, link before (rest.getLast nonempty) = .ok (some found) ∧
      found.equals step = true := by
  induction rest generalizing previous with
  | nil => contradiction
  | cons current rest inductionHypothesis =>
    obtain ⟨found, linked, same, steadyAfter⟩ := isSteady_cons_eq_true steady
    by_cases ended : rest = []
    · subst ended
      exact ⟨previous, found, linked, same⟩
    · rw [List.getLast_cons ended]
      exact inductionHypothesis ended steadyAfter

theorem commonStep_last {link : Link} {step : Number} (several : 2 ≤ numbers.length)
    (nonempty : numbers ≠ []) (common : commonStep link numbers = .ok (some step)) :
    ∃ before found, link before (numbers.getLast nonempty) = .ok (some found) ∧
      (found = step ∨ found.equals step = true) := by
  match numbers with
  | [] | [_] => simp at several
  | first :: second :: rest =>
    obtain ⟨linked, steady⟩ := commonStep_eq_some common
    by_cases ended : rest = []
    · subst ended
      exact ⟨first, step, linked, .inl rfl⟩
    · obtain ⟨before, found, lastLinked, same⟩ := isSteady_last ended steady
      refine ⟨before, found, ?_, .inr same⟩
      rw [List.getLast_cons (by simp), List.getLast_cons ended]
      exact lastLinked

/-- A step that a third number confirmed equals what it was compared with. -/
theorem exists_equals_commonStep {link : Link} {step : Number} (enough : 3 ≤ numbers.length)
    (common : commonStep link numbers = .ok (some step)) :
    ∃ found : Number, found.equals step = true := by
  match numbers with
  | [] | [_] | [_, _] => simp at enough
  | first :: second :: third :: rest =>
    obtain ⟨-, steady⟩ := commonStep_eq_some common
    obtain ⟨found, -, same, -⟩ := isSteady_cons_eq_true steady
    exact ⟨found, same⟩

theorem classified_step_ne_nan (enough : 3 ≤ numbers.length) {classification : Classification}
    (classified : classify numbers location = .ok classification) :
    classification.step ≠ .float .nan := by
  have several : 2 ≤ numbers.length := by omega
  rcases classify_eq_ok several classified with ⟨-, common⟩ | ⟨-, -, common⟩
  · obtain ⟨found, same⟩ := exists_equals_commonStep enough common
    exact Number.right_ne_nan_of_equals same
  · obtain ⟨found, same⟩ := exists_equals_commonStep enough common
    exact Number.right_ne_nan_of_equals same

theorem difference_eq_some {previous current found : Number}
    (linked : difference previous current = .ok (some found)) :
    current.sub previous = .ok found := by
  rw [difference] at linked
  cases subtracted : current.sub previous with
  | error =>
    rw [subtracted] at linked
    cases linked
  | ok result =>
    rw [subtracted] at linked
    cases linked
    rfl

theorem ratio_eq_some {previous current found : Number}
    (linked : ratio previous current = .ok (some found)) :
    current.div previous = .ok found := by
  rw [ratio] at linked
  split at linked
  · cases linked
  · cases divided : current.div previous with
    | error =>
      rw [divided] at linked
      cases linked
    | ok result =>
      rw [divided] at linked
      cases linked
      rfl

theorem convertible_of_same {step : Number} {value : Binary64}
    (same : .float value = step ∨ (Number.float value).equals step = true) : step.Convertible := by
  rcases same with rfl | same
  · exact True.intro
  · exact Number.convertible_of_equals_float same

/-- The step of a classification can be applied to the last number: a step that is an integer
behind a binary64 number equals their last difference, so it is representable. -/
theorem compatible_step (several : 2 ≤ numbers.length) (nonempty : numbers ≠ [])
    (convertible : ∀ number ∈ numbers, number.Convertible) {classification : Classification}
    (classified : classify numbers location = .ok classification) :
    Number.Compatible (numbers.getLast nonempty) classification.step := by
  have lastConvertible := convertible _ (List.getLast_mem nonempty)
  rcases classify_eq_ok several classified with ⟨-, common⟩ | ⟨-, -, common⟩
  · obtain ⟨before, found, linked, same⟩ := commonStep_last several nonempty common
    have subtracted := difference_eq_some linked
    cases last : numbers.getLast nonempty with
    | float value =>
      -- The step may be an integer of the first difference, but the last difference is rounded.
      rw [last] at subtracted
      obtain ⟨result, rfl⟩ := Number.sub_float_eq_float subtracted
      exact .of_convertible True.intro (convertible_of_same same)
    | int value => cases step : classification.step with
      | int => exact True.intro
      | float =>
        rw [last] at lastConvertible
        exact .of_convertible lastConvertible True.intro
  · obtain ⟨before, found, linked, same⟩ := commonStep_last several nonempty common
    obtain ⟨value, rfl⟩ := Number.div_eq_float (ratio_eq_some linked)
    exact .of_convertible lastConvertible (convertible_of_same same)

end Pattern

end Progressions
