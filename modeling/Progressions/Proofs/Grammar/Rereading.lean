import Progressions.Proofs.Grammar.Printing
import Progressions.Proofs.Number.Shortest

/-!
# Printed values read back

A printed value is a numeral: an integer, or a fraction whose shortest digits are written without an
exponent.  Numerals with one separator between them are a sentence, so what was printed is accepted
and stands for equal numbers, whatever blanks the separator has.

Only a binary64 number without a fraction changes on the way: it comes back as an integer.
-/

set_option autoImplicit false

namespace Progressions

namespace Binary64

variable {magnitude : Magnitude}

theorem toInt?_of_dvd (negative : Bool) (whole : unitsPerOne ∣ magnitude.units) :
    ∃ value : Int, (finite negative magnitude).toInt? = some value ∧
      value * unitsPerOne = signedUnits negative magnitude ∧
        value.natAbs ≤ magnitude.units := by
  have below : magnitude.units / unitsPerOne ≤ magnitude.units := Nat.div_le_self _ _
  have units : (magnitude.units / unitsPerOne : Nat) * (unitsPerOne : Int) = magnitude.units := by
    exact_mod_cast Nat.div_mul_cancel whole
  rw [toInt?, if_pos (Nat.mod_eq_zero_of_dvd whole)]
  cases negative with
  | false => exact ⟨_, rfl, units, below⟩
  | true =>
    refine ⟨_, rfl, ?_, ?_⟩
    · rw [if_pos rfl, Int.neg_mul, units]
      rfl
    · rw [if_pos rfl, Int.natAbs_neg]
      exact below

theorem toInt?_of_not_dvd (negative : Bool) (fraction : ¬ unitsPerOne ∣ magnitude.units) :
    (finite negative magnitude).toInt? = none :=
  if_neg (mt Nat.dvd_of_mod_eq_zero fraction)

end Binary64

namespace Number

/-- What the text of a printed value stands for. -/
def reread : Number → Number
  | .int value => .int value
  | .float value =>
    match value.toInt? with
    | some whole => .int whole
    | none => .float value

/-- An integer within the digit limit, or a finite number that has no fraction or is not below one
ten-thousandth. -/
def Printable : Number → Prop
  | .int value => value.natAbs < digitCeiling
  | .float (.finite _ magnitude) => unitsPerOne ∣ magnitude.units ∨ magnitude.Plain
  | .float _ => False

instance : DecidablePred Printable
  | .int value => inferInstanceAs (Decidable (value.natAbs < digitCeiling))
  | .float (.finite _ magnitude) => inferInstanceAs
      (Decidable (unitsPerOne ∣ magnitude.units ∨ unitsPerOne ≤ 10000 * magnitude.units))
  | .float .nan => .isFalse id
  | .float (.infinite _) => .isFalse id

/-- The number is printed as the numeral, and read back from it. -/
structure WrittenAs (number : Number) (numeral : Numeral) : Prop where
  printed : number.printed = .ok (String.ofList numeral.text)
  value : numeral.value = number.reread
  equals : number.reread.equals number = true
  short : numeral.Short digitLimit

theorem writtenAs_int {value : Int} (printable : (Number.int value).Printable) :
    (Number.int value).WrittenAs (.ofInt value) := by
  have writable : (Number.int value).writable = true := by
    rw [writable, decide_eq_true_eq]
    exact printable
  constructor
  case printed => rw [printed_int writable, Numeral.text_ofInt, String.ofList_toList]
  case value => exact Numeral.value_ofInt value
  case equals => exact equals_self_iff.mpr (by simp [reread])
  case short => exact fun _ => Numeral.length_whole_of_writable writable

variable {negative : Bool} {magnitude : Magnitude}

theorem exists_writtenAs_of_dvd (whole : unitsPerOne ∣ magnitude.units) :
    ∃ numeral, (Number.float (.finite negative magnitude)).WrittenAs numeral := by
  obtain ⟨value, isWhole, units, below⟩ := Binary64.toInt?_of_dvd negative whole
  have ceilings : unitsCeiling ≤ digitCeiling := by decide +kernel
  have printable : (Number.int value).Printable :=
    Nat.lt_of_lt_of_le (Nat.lt_of_le_of_lt below magnitude.representable.1) ceilings
  have written := writtenAs_int printable
  refine ⟨.ofInt value, ?_⟩
  have isReread : (Number.float (.finite negative magnitude)).reread = .int value := by
    rw [reread, isWhole]
  constructor
  case printed =>
    rw [← written.printed]
    simp only [printed, isWhole]
  case value => rw [isReread, Numeral.value_ofInt]
  case equals =>
    rw [isReread, equals_iff]
    exact ⟨_, congrArg (some ∘ Place.at) units, rfl⟩
  case short => exact written.short

theorem exists_writtenAs_of_plain (plain : magnitude.Plain)
    (fraction : ¬ unitsPerOne ∣ magnitude.units) :
    ∃ numeral, (Number.float (.finite negative magnitude)).WrittenAs numeral := by
  obtain ⟨numeral, isText, value, places⟩ := Magnitude.exists_numeral negative plain fraction
  have noInteger := Binary64.toInt?_of_not_dvd negative fraction
  have isReread : (Number.float (.finite negative magnitude)).reread =
      .float (.finite negative magnitude) := by
    rw [reread, noInteger]
  refine ⟨numeral, ?_⟩
  constructor
  case printed =>
    rw [← isText]
    simp only [printed, noInteger]
    rfl
  case value => rw [isReread, value]
  case equals =>
    rw [isReread]
    exact equals_self_iff.mpr (by simp)
  case short => exact fun integer => absurd integer places

theorem exists_writtenAs {number : Number} (printable : number.Printable) :
    ∃ numeral, number.WrittenAs numeral := by
  cases number with
  | int value => exact ⟨_, writtenAs_int printable⟩
  | float value => cases value with
    | nan => exact absurd printable id
    | infinite negative => exact absurd printable id
    | finite negative magnitude =>
      by_cases whole : unitsPerOne ∣ magnitude.units
      · exact exists_writtenAs_of_dvd whole
      · exact exists_writtenAs_of_plain (printable.resolve_left whole) whole

theorem exists_numerals {numbers : List Number}
    (printable : ∀ number ∈ numbers, number.Printable) :
    ∃ numerals : List Numeral,
      numbers.mapM printed = .ok (numerals.map fun numeral => String.ofList numeral.text) ∧
        numerals.map Numeral.value = numbers.map reread ∧
        allEqual (numbers.map reread) numbers = true ∧
        ∀ numeral ∈ numerals, numeral.Short digitLimit := by
  induction numbers with
  | nil => exact ⟨[], rfl, rfl, rfl, nofun⟩
  | cons number numbers inductionHypothesis =>
    obtain ⟨numeral, written⟩ := exists_writtenAs (printable number List.mem_cons_self)
    obtain ⟨numerals, printedLater, values, equalLater, shortLater⟩ :=
      inductionHypothesis fun other member => printable other (List.mem_cons_of_mem number member)
    refine ⟨numeral :: numerals, ?_, ?_, ?_, ?_⟩
    · rw [List.mapM_cons, written.printed, printedLater]
      rfl
    · rw [List.map_cons, List.map_cons, written.value, values]
    · rw [List.map_cons, allEqual, written.equals, equalLater]
      rfl
    · exact List.forall_mem_cons.mpr ⟨written.short, shortLater⟩

end Number

namespace Sentence

def ofNumerals (first : Numeral) (others : List Numeral) (separator : Separator) : Sentence where
  first := first
  further := others.map (.separated separator)
  tail := none
  enough := nofun

variable {first : Numeral} {others : List Numeral} {separator : Separator}

theorem numbers_ofNumerals :
    (ofNumerals first others separator).numbers = (first :: others).map Numeral.value := by
  simp [numbers, ofNumerals, Continued.numeral, Function.comp_def]

theorem numerals_ofNumerals :
    (ofNumerals first others separator).numerals = first :: others := by
  simp [numerals, ofNumerals, Continued.numeral, limit?, Function.comp_def]

theorem text_ofNumerals :
    (ofNumerals first others separator).text =
      separator.text.intercalate ((first :: others).map Numeral.text) := by
  rw [List.map_cons, intercalate_cons]
  simp [text, ofNumerals, tailText, Continued.text, List.flatMap_map]

end Sentence

def Separator.brokenLine : Separator :=
  ⟨[' '], ['\n'], List.all_eq_true.mp rfl, List.all_eq_true.mp rfl⟩

namespace Specification

/-- The texts of printed values with one separator between them are accepted, without an ellipsis,
and stand for the values: for equal integers where there was no fraction, for the same numbers
elsewhere. -/
theorem ofText_printed {numbers : List Number} (separator : Separator) (nonempty : numbers ≠ [])
    (printable : ∀ number ∈ numbers, number.Printable) :
    ∃ texts specification, numbers.mapM Number.printed = .ok texts ∧
      ofText ((String.ofList separator.text).intercalate texts) = .ok specification ∧
      specification.hasEllipsis = false ∧
      specification.numbers = numbers.map Number.reread ∧
      Number.allEqual specification.numbers numbers = true := by
  obtain ⟨numerals, texts, values, equal, short⟩ := Number.exists_numerals printable
  cases numerals with
  | nil =>
    rw [List.map_nil, eq_comm, List.map_eq_nil_iff] at values
    exact absurd values nonempty
  | cons first others =>
    have isText : (Sentence.ofNumerals first others separator).text =
        ((String.ofList separator.text).intercalate
          ((first :: others).map fun numeral => String.ofList numeral.text)).toList := by
      rw [Sentence.text_ofNumerals, String.toList_intercalate, String.toList_ofList, List.map_map]
      simp only [Function.comp_def, String.toList_ofList]
    have allShort : ∀ numeral ∈ (Sentence.ofNumerals first others separator).numerals,
        numeral.Short digitLimit := by
      rw [Sentence.numerals_ofNumerals]
      exact short
    obtain ⟨specification, accepted, numbersRead, hasEllipsis, -⟩ :=
      ofText_sentence (Sentence.within_of_short allShort isText) isText
    rw [Sentence.numbers_ofNumerals, values] at numbersRead
    refine ⟨_, specification, texts, accepted, hasEllipsis, numbersRead, ?_⟩
    rw [numbersRead]
    exact equal

def mixedNumbers : List Number :=
  [.int (-12), .float (Binary64.ofDecimal true 0 0), .float (Binary64.ofDecimal true 25 (-1)),
    .float (Binary64.ofInt (2 ^ 1024 - 2 ^ 971))]

/-- The zero loses its sign and comes back as an integer, and so does the largest number. -/
theorem ofText_printed_mixed :
    mixedNumbers ≠ [] ∧ (∀ number ∈ mixedNumbers, number.Printable) ∧
      mixedNumbers.map Number.reread = [.int (-12), .int 0,
        .float (Binary64.ofDecimal true 25 (-1)), .int (2 ^ 1024 - 2 ^ 971)] ∧
      ∃ texts specification, mixedNumbers.mapM Number.printed = .ok texts ∧
        ofText ((String.ofList Separator.brokenLine.text).intercalate texts) =
          .ok specification ∧
        specification.numbers = mixedNumbers.map Number.reread := by
  have printable : ∀ number ∈ mixedNumbers, number.Printable := by decide +kernel
  obtain ⟨texts, specification, isText, accepted, -, numbers, -⟩ :=
    ofText_printed Separator.brokenLine (List.cons_ne_nil _ _) printable
  exact ⟨List.cons_ne_nil _ _, printable, by decide +kernel, texts, specification, isText,
    accepted, numbers⟩

end Specification

end Progressions
