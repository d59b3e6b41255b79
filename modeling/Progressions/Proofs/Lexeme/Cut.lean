import Progressions.Proofs.Lexeme.Numeral

/-!
# One word at the front of a text

`cut` tries the four classes of words one after the other.  `cut_eq_iff` says that the order
does not matter: no text has words of two classes at its front, so a cut gives a word of a
class exactly when that class has one there.
-/

set_option autoImplicit false

namespace Progressions.Lexeme

/-! ## What words start with -/

theorem exists_opensSeparator_cons (separator : Separator) : ∃ first others,
    separator.text = first :: others ∧ opensSeparator first = true := by
  obtain ⟨before, after, blankBefore, blankAfter⟩ := separator
  cases before with
  | nil => exact ⟨',', after, rfl, rfl⟩
  | cons first others =>
    have blank := blankBefore first List.mem_cons_self
    exact ⟨first, others ++ ',' :: after, rfl, by simp [opensSeparator, blank]⟩

theorem exists_opensNumeral_cons (numeral : Numeral) : ∃ first others,
    numeral.text = first :: others ∧ opensNumeral first = true := by
  obtain ⟨sign, whole, fraction⟩ := numeral
  cases sign with
  | absent =>
    obtain ⟨first, others, shape, digit, -⟩ := exists_digit_cons whole
    refine ⟨first, others ++ Numeral.fractionText ⟨.absent, whole, fraction⟩, ?_, ?_⟩
    · simp [Numeral.text, Sign.text, shape]
    · simp [opensNumeral, digit]
  | plus => exact ⟨'+', _, rfl, rfl⟩
  | minus => exact ⟨'-', _, rfl, rfl⟩

theorem stops_opensSeparator_numeral (numeral : Numeral) (rest : List Char) :
    Stops opensSeparator (numeral.text ++ rest) := by
  obtain ⟨first, others, shape, opens⟩ := exists_opensNumeral_cons numeral
  rw [shape]
  exact stops_cons _ (not_opensSeparator_of_opensNumeral opens)

theorem stops_opensSeparator_infinity (sign : Sign) (rest : List Char) :
    Stops opensSeparator (infinityText sign ++ rest) := by
  cases sign <;> exact stops_cons _ (by decide)

theorem stops_opensSeparator_ellipsis (rest : List Char) :
    Stops opensSeparator (ellipsisText ++ rest) :=
  stops_cons _ (by decide)

theorem Stops.mono {inner outer : Char → Bool} {text : List Char} (stops : Stops outer text)
    (smaller : ∀ character, inner character = true → outer character = true) :
    Stops inner text := by
  intro character head
  have outside := stops character head
  cases inside : inner character with
  | false => rfl
  | true => rw [smaller character inside] at outside; contradiction

/-- What does not start a separator does not lengthen one either. -/
theorem Stops.isBlank {text : List Char} (stops : Stops opensSeparator text) :
    Stops Text.isBlank text :=
  stops.mono fun character blank => by simp [opensSeparator, blank]

/-! ## The classes exclude each other -/

theorem separator?_eq_none {text : List Char} (stops : Stops opensSeparator text) :
    separator? text = none := by
  rcases found : separator? text with _ | ⟨lexeme, rest⟩
  · rfl
  · obtain ⟨rfl, separator, rfl, -⟩ := separator?_eq_some_iff.mp found
    obtain ⟨first, others, shape, opens⟩ := exists_opensSeparator_cons separator
    rw [shape] at stops
    have := stops first rfl
    rw [opens] at this
    contradiction

theorem ellipsis?_eq_none {text : List Char} (stops : Stops (· == '.') text) :
    ellipsis? text = none := by
  rcases found : ellipsis? text with _ | ⟨lexeme, rest⟩
  · rfl
  · obtain ⟨rfl, rfl⟩ := ellipsis?_eq_some_iff.mp found
    have := stops '.' rfl
    contradiction

theorem infinity?_numeral (numeral : Numeral) (rest : List Char) :
    infinity? (numeral.text ++ rest) = none := by
  obtain ⟨first, others, shape, digit, -⟩ := exists_digit_cons numeral.whole
  have noWord : first ≠ 'I' := ne_of_class digit rfl
  have grouped : numeral.text ++ rest =
      numeral.sign.text ++ (numeral.whole.text ++ (numeral.fractionText ++ rest)) := by
    simp [Numeral.text]
  unfold infinity?
  rw [grouped, splitSign_text_append numeral.sign (stops_isSign_digits _ _), shape]
  split
  · next splits =>
    have body := (Prod.mk.inj splits).2
    exact absurd (List.cons.inj body).1 noWord
  · rfl

theorem stops_point_numeral (numeral : Numeral) (rest : List Char) :
    Stops (· == '.') (numeral.text ++ rest) := by
  obtain ⟨first, others, shape, opens⟩ := exists_opensNumeral_cons numeral
  have noPoint : first ≠ '.' := ne_of_class opens rfl
  rw [shape]
  exact stops_cons _ (by simpa using noPoint)

theorem stops_point_infinity (sign : Sign) (rest : List Char) :
    Stops (· == '.') (infinityText sign ++ rest) := by
  cases sign <;> exact stops_cons _ (by decide)

/-- The word of a class at the front of a text. -/
def ofKind? : TokenKind → List Char → Option (List Char × List Char)
  | .comma => separator?
  | .ellipsis => ellipsis?
  | .infinity => infinity?
  | .number => number?
  | .invalid | .endOfInput => fun _ => none

theorem cut_of_ofKind? {kind : TokenKind} {text lexeme rest : List Char}
    (found : ofKind? kind text = some (lexeme, rest)) : cut text = ⟨kind, lexeme, rest⟩ := by
  cases kind with
  | comma =>
    simp only [ofKind?] at found
    simp only [cut, found]
  | ellipsis =>
    simp only [ofKind?] at found
    obtain ⟨rfl, rfl⟩ := ellipsis?_eq_some_iff.mp found
    have noSeparator := separator?_eq_none (stops_opensSeparator_ellipsis rest)
    simp only [cut, noSeparator, found]
  | infinity =>
    simp only [ofKind?] at found
    obtain ⟨rfl, sign, rfl⟩ := infinity?_eq_some_iff.mp found
    have noSeparator := separator?_eq_none (stops_opensSeparator_infinity sign rest)
    have noEllipsis := ellipsis?_eq_none (stops_point_infinity sign rest)
    simp only [cut, noSeparator, noEllipsis, found]
  | number =>
    simp only [ofKind?] at found
    obtain ⟨rfl, numeral, rfl, -⟩ := number?_eq_some_iff.mp found
    have noSeparator := separator?_eq_none (stops_opensSeparator_numeral numeral rest)
    have noEllipsis := ellipsis?_eq_none (stops_point_numeral numeral rest)
    have noInfinity := infinity?_numeral numeral rest
    simp only [cut, noSeparator, noEllipsis, noInfinity, found]
  | invalid => cases found
  | endOfInput => cases found

theorem ofKind?_of_cut {kind : TokenKind} {text lexeme rest : List Char}
    (cuts : cut text = ⟨kind, lexeme, rest⟩) (valid : kind ≠ .invalid) :
    ofKind? kind text = some (lexeme, rest) := by
  unfold cut at cuts
  split at cuts
  · cases cuts; assumption
  · split at cuts
    · cases cuts; assumption
    · split at cuts
      · cases cuts; assumption
      · split at cuts
        · cases cuts; assumption
        · cases cuts; contradiction

theorem cut_eq_iff {kind : TokenKind} {text lexeme rest : List Char} (valid : kind ≠ .invalid) :
    cut text = ⟨kind, lexeme, rest⟩ ↔ ofKind? kind text = some (lexeme, rest) :=
  ⟨fun cuts => ofKind?_of_cut cuts valid, cut_of_ofKind?⟩

/-! ## Cuts of the words of each class -/

theorem cut_numeral {numeral : Numeral} {rest : List Char} (closes : Closes numeral rest) :
    cut (numeral.text ++ rest) = ⟨.number, numeral.text, rest⟩ :=
  (cut_eq_iff (by decide)).mpr (number?_text_append closes)

theorem cut_separator (separator : Separator) {rest : List Char}
    (stops : Stops Text.isBlank rest) :
    cut (separator.text ++ rest) = ⟨.comma, separator.text, rest⟩ :=
  (cut_eq_iff (by decide)).mpr (separator?_eq_some_iff.mpr ⟨rfl, separator, rfl, stops⟩)

theorem cut_ellipsis (rest : List Char) :
    cut (ellipsisText ++ rest) = ⟨.ellipsis, ellipsisText, rest⟩ :=
  (cut_eq_iff (by decide)).mpr (ellipsis?_eq_some_iff.mpr ⟨rfl, rfl⟩)

theorem cut_infinity (sign : Sign) (rest : List Char) :
    cut (infinityText sign ++ rest) = ⟨.infinity, infinityText sign, rest⟩ :=
  (cut_eq_iff (by decide)).mpr (infinity?_eq_some_iff.mpr ⟨rfl, sign, rfl⟩)

end Progressions.Lexeme
