import Progressions.Proofs.Grammar.Printing
import Progressions.Proofs.Interpretation.Building
import Progressions.Proofs.Pattern.Integers
import Progressions.Proofs.Stream.Integers

/-!
# Sequences specified by their own output

An arithmetic sequence of integers may be specified again by the values that it printed: with an
ellipsis and the bound behind them they are read as the same progression, which goes on where the
output stopped and hands out the same stream.
-/

set_option autoImplicit false

namespace Progressions

/-- The text of a bound: an infinity is spelled as specifications spell it. -/
def Number.limitText : Number → Except NumberError String
  | .float (.infinite negative) => .ok (if negative then "-Inf" else "Inf")
  | number => number.printed

theorem Number.limitText_int (whole : Int) :
    (Number.int whole).limitText = (Number.int whole).printed := rfl

/-- Printed values with commas between them, and an ellipsis and the bound behind them. -/
def specificationText (values : List Number) (bound : Option Number) :
    Except NumberError String := do
  let texts ← values.mapM Number.printed
  let limits ← bound.toList.mapM Number.limitText
  return ",".intercalate (texts ++ "..." :: limits)

/-! ## The text of a specification -/

/-- A limit that the bound is written as, if it is an integer or infinite. -/
inductive Limit.Writes : Option Limit → Option Number → Prop
  | absent : Writes none none
  | finite {whole : Int} (writable : (Number.int whole).writable = true) :
    Writes (some (.finite (.ofInt whole))) (some (.int whole))
  | infinite (negative : Bool) :
    Writes (some (.infinite (if negative then .minus else .absent)))
      (some (.float (.infinite negative)))

namespace Limit.Writes

variable {limit : Option Limit} {bound : Option Number}

theorem exists_writes
    (writable : ∀ number ∈ bound, number.writable = true)
    (limited : ∀ number ∈ bound, (∃ whole, number = .int whole) ∨
      ∃ negative, number = .float (.infinite negative)) :
    ∃ limit, Writes limit bound := by
  cases bound with
  | none => exact ⟨none, .absent⟩
  | some number =>
    rcases limited number rfl with ⟨whole, rfl⟩ | ⟨negative, rfl⟩
    · exact ⟨_, .finite (writable _ rfl)⟩
    · exact ⟨_, .infinite negative⟩

theorem value (writes : Writes limit bound) : limit.map Limit.value = bound := by
  cases writes with
  | absent => rfl
  | finite => exact congrArg some (Numeral.value_ofInt _)
  | infinite negative => cases negative <;> rfl

theorem short (writes : Writes limit bound) :
    ∀ numeral ∈ (limit.bind Limit.numeral?).toList, numeral.Short digitLimit := by
  intro numeral member
  cases writes with
  | absent => cases member
  | finite writable =>
    obtain rfl := List.mem_singleton.mp member
    exact fun _ => Numeral.length_whole_of_writable writable
  | infinite negative => cases member

theorem text (writes : Writes limit bound) :
    ∃ texts, bound.toList.mapM Number.limitText = .ok texts ∧
      texts.map String.toList = limit.toList.map Limit.text := by
  cases writes with
  | absent => exact ⟨[], rfl, rfl⟩
  | @finite whole writable =>
    refine ⟨[toString whole], ?_, ?_⟩
    · rw [Option.toList_some, List.mapM_cons, Number.limitText_int, Number.printed_int writable]
      rfl
    · simp [Limit.text, Numeral.text_ofInt]
  | infinite negative =>
    cases negative with
    | false => exact ⟨["Inf"], rfl, by decide +kernel⟩
    | true => exact ⟨["-Inf"], rfl, by decide +kernel⟩

end Limit.Writes

theorem mapM_printed_int {wholes : List Int}
    (writable : ∀ whole ∈ wholes, (Number.int whole).writable = true) :
    (wholes.map Number.int).mapM Number.printed = .ok (wholes.map toString) := by
  rw [List.mapM_map]
  refine mapM_eq_ok_map ?_
  intro whole member
  rw [Function.comp, Number.printed_int (writable whole member)]

section Printed

variable {first : Int} {others : List Int} {limit : Option Limit} {bound : Option Number}
  (enough : 3 ≤ (first :: others).length)
  (writable : ∀ whole ∈ first :: others, (Number.int whole).writable = true)
  (writes : Limit.Writes limit bound)

include writable writes

theorem specificationText_ofInts :
    ∃ text, specificationText ((first :: others).map .int) bound = .ok text ∧
      (Sentence.ofInts first others limit enough).text = text.toList := by
  obtain ⟨limits, limitsWritten, limitTexts⟩ := writes.text
  refine ⟨",".intercalate ((first :: others).map toString ++ "..." :: limits), ?_, ?_⟩
  · rw [specificationText, mapM_printed_int writable, limitsWritten]
    rfl
  · have comma : ",".toList = [','] := by decide +kernel
    have ellipsis : "...".toList = ellipsisText := by decide +kernel
    rw [Sentence.text_ofInts, String.toList_intercalate, comma]
    simp only [List.map_append, List.map_cons, List.map_map, limitTexts, ellipsis]
    rfl

/-! ## The sequence of the text -/

theorem within_ofInts {text : List Char}
    (isText : (Sentence.ofInts first others limit enough).text = text) :
    Lexeme.IntegersWithin digitLimit text := by
  refine Sentence.within_of_short ?_ isText
  rw [Sentence.numerals_ofInts]
  intro numeral member
  rcases List.mem_append.mp member with listed | limited
  · obtain ⟨whole, present, rfl⟩ := List.mem_map.mp listed
    exact fun _ => Numeral.length_whole_of_writable (writable whole present)
  · exact writes.short numeral limited

theorem ofText_ofInts {text : String} {step : Int}
    (evenly : Pattern.Evenly step (first :: others))
    (isText : (Sentence.ofInts first others limit enough).text = text.toList) :
    ∃ sequence, Sequence.ofText text = .ok sequence ∧
      sequence.numbers = (first :: others).map .int ∧
        sequence.progression = some ⟨.arithmetic, .int step, bound⟩ := by
  have within := within_ofInts enough writable writes isText
  obtain ⟨specification, accepted, numbers, hasEllipsis, limited⟩ :=
    Specification.ofText_sentence within isText
  rw [Sentence.numbers_ofInts] at numbers
  rw [Sentence.bound_ofInts, writes.value] at limited
  have nonempty : specification.numbers ≠ [] := by simp [numbers]
  have several : 2 ≤ (first :: others).length := by omega
  have classified : classify specification.numbers specification.ellipsisLocation =
      .ok ⟨.arithmetic, .int step⟩ := by
    rw [numbers]
    exact (Pattern.classify_arithmetic_iff several _ _).mpr ⟨step, rfl, evenly⟩
  have built := Sequence.ofSpecification_classified nonempty hasEllipsis classified
  rw [limited] at built
  exact ⟨_, (Sequence.ofText_accepted accepted).trans built, numbers, rfl⟩

end Printed

/-- What is known of an arithmetic sequence of integers that a text describes. -/
theorem evenly_of_ofText {source : String} {sequence : Sequence} {step : Number}
    {bound : Option Number} {wholes : List Int}
    (accepted : Sequence.ofText source = .ok sequence)
    (arithmetic : sequence.progression = some ⟨.arithmetic, step, bound⟩)
    (integers : sequence.numbers = wholes.map .int) :
    3 ≤ wholes.length ∧ (∀ number ∈ bound, number.writable = true) ∧
      ∃ difference, step = .int difference ∧ Pattern.Evenly difference wholes := by
  obtain ⟨specification, read, built⟩ := Sequence.exists_specification_of_ofText accepted
  have within := Specification.within_of_ofText read
  obtain ⟨sameNumbers, ⟨-, itemized⟩ | ⟨classification, hasEllipsis, classified, goesOn⟩⟩ :=
    Sequence.ofSpecification_eq_ok built
  · rw [itemized] at arithmetic
    cases arithmetic
  · obtain ⟨pattern, found⟩ := classification
    cases arithmetic.symm.trans goesOn
    have enough := (Specification.wellCounted_of_ofText within read).enough hasEllipsis
    rw [← sameNumbers, integers, List.length_map] at enough
    refine ⟨enough, ?_, ?_⟩
    · intro number present
      have ceiling : 10 ^ digitLimit ≤ Number.digitCeiling := by decide +kernel
      exact Number.writable_of_integerBelow
        (Specification.bound_below_of_ofText within read number present) ceiling
    · rw [← sameNumbers, integers] at classified
      have several : 2 ≤ wholes.length := by omega
      exact (Pattern.classify_arithmetic_iff several _ _).mp classified

theorem evenly_of_yields {sequence : Sequence} {difference : Int} {bound : Option Number}
    {wholes : List Int} {values : List Number} (nonempty : wholes ≠ [])
    (arithmetic : sequence.progression = some ⟨.arithmetic, .int difference, bound⟩)
    (integers : sequence.numbers = wholes.map .int) (evenly : Pattern.Evenly difference wholes)
    (covers : sequence.numbers.length ≤ values.length) (yields : sequence.Yields values) :
    ∃ all : List Int, values = all.map .int ∧ Pattern.Evenly difference all := by
  have isLast := List.getLast?_eq_some_getLast nonempty
  exact ⟨_, Sequence.yields_int arithmetic integers isLast yields covers,
    evenly.append isLast (values.length - wholes.length)⟩

/-- An arithmetic sequence of integers is specified again by the values of a run that covers its
numbers: they are read, with the bound behind the ellipsis, as the same progression, and the stream
is the same. -/
theorem ofText_specificationText {source : String} {sequence : Sequence} {step : Number}
    {bound : Option Number} {wholes : List Int} {values : List Number}
    (accepted : Sequence.ofText source = .ok sequence)
    (arithmetic : sequence.progression = some ⟨.arithmetic, step, bound⟩)
    (integers : sequence.numbers = wholes.map .int)
    (limited : ∀ number ∈ bound, (∃ whole, number = .int whole) ∨
      ∃ negative, number = .float (.infinite negative))
    (covers : sequence.numbers.length ≤ values.length)
    (yields : sequence.outcomes values.length = values.map (.ok ∘ some))
    (writable : ∀ value ∈ values, value.writable = true) :
    ∃ text again, specificationText values bound = .ok text ∧ Sequence.ofText text = .ok again ∧
      again.progression = some ⟨.arithmetic, step, bound⟩ ∧ again.numbers = values ∧
        ∀ count, again.outcomes count = sequence.outcomes count := by
  obtain ⟨enough, boundWritable, difference, rfl, evenly⟩ :=
    evenly_of_ofText accepted arithmetic integers
  have covered : 3 ≤ values.length := by
    rw [integers, List.length_map] at covers
    omega
  have nonempty : wholes ≠ [] := by
    rintro rfl
    simp at enough
  obtain ⟨limit, writes⟩ := Limit.Writes.exists_writes boundWritable limited
  obtain ⟨all, rfl, evenlyAll⟩ := evenly_of_yields nonempty arithmetic integers evenly covers yields
  rw [List.length_map] at covered
  match all with
  | [] => simp at covered
  | first :: others =>
    have allWritable : ∀ whole ∈ first :: others, (Number.int whole).writable = true := by
      intro whole member
      exact writable _ (List.mem_map_of_mem member)
    obtain ⟨text, written, isText⟩ := specificationText_ofInts covered allWritable writes
    obtain ⟨again, read, numbers, progression⟩ :=
      ofText_ofInts covered allWritable writes evenlyAll isText
    refine ⟨text, again, written, read, progression, numbers, ?_⟩
    exact Sequence.outcomes_of_yields arithmetic yields covers numbers progression

/-- Ten, eight, six and so on without an end, specified again behind zero. -/
def fallingSequence : Sequence :=
  ⟨[.int 10, .int 8, .int 6],
    some ⟨.arithmetic, .int (-2), some (.float (.infinite true))⟩, List.cons_ne_nil _ _⟩

def fallingValues : List Number := [10, 8, 6, 4, 2, 0, -2].map .int

theorem ofText_specificationText_falling :
    Sequence.ofText "10,8,6,...,-Inf" = .ok fallingSequence ∧
      fallingSequence.outcomes 7 = fallingValues.map (.ok ∘ some) ∧
      ∃ text again, specificationText fallingValues (some (.float (.infinite true))) = .ok text ∧
        Sequence.ofText text = .ok again ∧
        again.progression = fallingSequence.progression ∧ again.numbers = fallingValues ∧
          ∀ count, again.outcomes count = fallingSequence.outcomes count := by
  have accepted : Sequence.ofText "10,8,6,...,-Inf" = .ok fallingSequence := by
    decide +kernel
  have yields : fallingSequence.outcomes 7 = fallingValues.map (.ok ∘ some) := by
    decide +kernel
  have integers : fallingSequence.numbers = [10, 8, 6].map .int := rfl
  have limited : ∀ number ∈ some (Number.float (.infinite true)),
      (∃ whole, number = .int whole) ∨ ∃ negative, number = .float (.infinite negative) := by
    intro number present
    exact .inr ⟨true, (Option.some.inj present).symm⟩
  have writable : ∀ value ∈ fallingValues, value.writable = true := by decide +kernel
  exact ⟨accepted, yields, ofText_specificationText accepted rfl integers limited (by decide)
    yields writable⟩

end Progressions
