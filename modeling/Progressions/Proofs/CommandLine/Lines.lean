import Progressions.CommandLine.Printing
import Progressions.Proofs.Number.Shortest

/-!
# Values on lines

No text of a number has a line end in it, so values that are printed with line ends between them
and behind the last stand on as many lines as there are values.
-/

set_option autoImplicit false

namespace Progressions

/-! ## Texts without a line end -/

theorem newline_notMem_digits {digits : List Char}
    (isDigit : ∀ character ∈ digits, character.isDigit = true) : '\n' ∉ digits := by
  intro member
  exact absurd (isDigit '\n' member) (by decide)

namespace DecimalDigits

variable {number : DecimalDigits} (clean : '\n' ∉ number.digits)

include clean

theorem newline_notMem_positional : '\n' ∉ number.positional := by
  rw [positional]
  split_ifs
  · simp [clean]
  · simp [clean]
  · have front : '\n' ∉ number.digits.take number.point.toNat := fun member =>
      clean (List.mem_of_mem_take member)
    have back : '\n' ∉ number.digits.drop number.point.toNat := fun member =>
      clean (List.mem_of_mem_drop member)
    simp [front, back]

theorem newline_notMem_scientific : '\n' ∉ number.scientific := by
  have power : '\n' ∉ Nat.toDigits 10 number.exponent.natAbs :=
    newline_notMem_digits fun character member =>
      Nat.isDigit_of_mem_toDigits (by decide) (Nat.le_refl 10) member
  simp only [scientific, List.mem_append, List.mem_cons, not_or]
  refine ⟨?mantissa, by decide, ?sign, ?power⟩
  case mantissa =>
    split
    · next isDigits =>
      rw [isDigits] at clean
      simpa using clean
    · exact clean
  case sign => split_ifs <;> decide
  case power =>
    split_ifs
    · simp [power]
    · exact power

theorem newline_notMem_layout : '\n' ∉ number.layout := by
  rw [layout]
  split_ifs
  · exact newline_notMem_positional clean
  · exact newline_notMem_scientific clean

end DecimalDigits

theorem Magnitude.newline_notMem_shortest (magnitude : Magnitude) :
    '\n' ∉ magnitude.shortest.digits := by
  by_cases zero : magnitude.units = 0
  · rw [shortest, if_pos zero]
    decide
  · obtain ⟨zeros, written⟩ := exists_writtenAs zero
    exact newline_notMem_digits written.digits

namespace Number

theorem newline_notMem_plain (number : Number) : '\n' ∉ number.plain.toList := by
  cases number with
  | int value =>
    have digits := newline_notMem_digits (Numeral.ofInt value).whole.digits
    have sign : '\n' ∉ (Numeral.ofInt value).sign.text := by
      cases (Numeral.ofInt value).sign <;> decide
    have noFraction : (Numeral.ofInt value).fractionText = [] := rfl
    rw [plain, ← Numeral.text_ofInt, Numeral.text, noFraction, List.append_nil, List.mem_append]
    exact not_or.mpr ⟨sign, digits⟩
  | float value =>
    cases value with
    | nan => decide +kernel
    | infinite negative => cases negative <;> decide +kernel
    | finite negative magnitude =>
      have layout := DecimalDigits.newline_notMem_layout magnitude.newline_notMem_shortest
      cases negative <;> simp [plain, Binary64.plain, layout]

/-! ## Printed values -/

/-- The integer that a value is printed as, unless it has a fraction or is not finite. -/
def whole? : Number → Option Int
  | .int value => some value
  | .float value => value.toInt?

/-- The text of a printed value, however many digits it has. -/
def shown (value : Number) : String :=
  match value.whole? with
  | some whole => toString whole
  | none => value.plain

theorem printed_eq (value : Number) :
    value.printed =
      if ∀ whole ∈ value.whole?, (Number.int whole).writable = true then .ok value.shown
      else .error .textTooLong := by
  have integer (whole : Int) : text (.int whole) =
      if ∀ other ∈ some whole, (Number.int other).writable = true then .ok (toString whole)
      else .error .textTooLong := by
    simp only [Option.mem_some, forall_eq', text, plain]
  cases value with
  | int whole => exact integer whole
  | float value =>
    rw [printed, shown, whole?]
    cases value.toInt? with
    | some whole => exact integer whole
    | none => rfl

theorem printed_of_short {value : Number}
    (short : ∀ whole ∈ value.whole?, (Number.int whole).writable = true) :
    value.printed = .ok value.shown := by
  rw [printed_eq, if_pos short]

theorem shown_of_printed {value : Number} {text : String} (printed : value.printed = .ok text) :
    value.printed = .ok value.shown := by
  rw [printed_eq] at printed ⊢
  split_ifs at printed ⊢
  rfl

theorem newline_notMem_shown (value : Number) : '\n' ∉ value.shown.toList := by
  rw [shown]
  split
  · next whole _ => exact newline_notMem_plain (.int whole)
  · exact value.newline_notMem_plain

end Number

namespace CommandLine

/-! ## Lines -/

/-- The texts with a separator in front of each. -/
def behind (separator : String) (texts : List String) : String :=
  String.join (texts.map (separator ++ ·))

/-- The texts with a line end behind each. -/
def lines (texts : List String) : String := String.join (texts.map (· ++ "\n"))

theorem behind_cons (separator text : String) (texts : List String) :
    behind separator (text :: texts) = separator ++ text ++ behind separator texts := by
  rw [behind, List.map_cons, String.join_cons]
  rfl

theorem lines_cons (text : String) (texts : List String) :
    lines (text :: texts) = text ++ "\n" ++ lines texts := by
  rw [lines, List.map_cons, String.join_cons]
  rfl

theorem intercalate_cons (separator text : String) (texts : List String) :
    separator.intercalate (text :: texts) = text ++ behind separator texts := by
  induction texts generalizing text with
  | nil =>
    rw [behind, List.map_nil, String.join_nil, String.append_empty, String.intercalate_singleton]
  | cons next texts inductionHypothesis =>
    rw [String.intercalate_cons_cons, inductionHypothesis, behind_cons, String.append_assoc,
      String.append_assoc]

/-- Line ends between texts and behind the last are line ends behind each. -/
theorem intercalate_newline {texts : List String} (nonempty : texts ≠ []) :
    "\n".intercalate texts ++ "\n" = lines texts := by
  induction texts with
  | nil => exact absurd rfl nonempty
  | cons text texts inductionHypothesis =>
    cases texts with
    | nil =>
      rw [String.intercalate_singleton, lines_cons, lines, List.map_nil, String.join_nil,
        String.append_empty]
    | cons next texts =>
      rw [String.intercalate_cons_cons, String.append_assoc,
        inductionHypothesis (List.cons_ne_nil _ _), ← lines_cons]

namespace Outlet

theorem lineEnds_append (front back : String) :
    lineEnds (front ++ back) = lineEnds front + lineEnds back := by
  rw [lineEnds, String.toList_append, List.count_append]
  rfl

theorem lineEnds_lines {texts : List String} (clean : ∀ text ∈ texts, '\n' ∉ text.toList) :
    lineEnds (lines texts) = texts.length := by
  induction texts with
  | nil => rfl
  | cons text texts inductionHypothesis =>
    have first : lineEnds text = 0 := List.count_eq_zero_of_not_mem (clean text List.mem_cons_self)
    have lineEnd : lineEnds "\n" = 1 := rfl
    have later := inductionHypothesis fun other member =>
      clean other (List.mem_cons_of_mem _ member)
    rw [lines_cons, lineEnds_append, lineEnds_append, first, lineEnd, later, List.length_cons]
    omega

theorem lineEnds_intercalate {texts : List String} (nonempty : texts ≠ [])
    (clean : ∀ text ∈ texts, '\n' ∉ text.toList) :
    lineEnds ("\n".intercalate texts) + 1 = texts.length := by
  rw [← lineEnds_lines clean, ← intercalate_newline nonempty, lineEnds_append]
  rfl

end Outlet

end CommandLine

end Progressions
