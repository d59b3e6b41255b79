import Progressions.Proofs.Lexeme.Words

/-!
# Where words end

The words of a text, written one after another, are the text again.  Cutting the text where a word
ends gives the words on either side (`words_append`, `words_written_append`).  A cut inside a word
leaves a word of the same class at the front, or an invalid one (`kind_cut_of_isPrefix`), so a text
that is cut short never starts with a word that the whole text does not start with.
-/

set_option autoImplicit false

namespace Progressions.Lexeme

def written (words : List Word) : List Char := words.flatMap (·.text)

theorem written_cons (word : Word) (later : List Word) :
    written (word :: later) = word.text ++ written later := rfl

theorem written_append (before after : List Word) :
    written (before ++ after) = written before ++ written after := by
  simp [written]

theorem written_words (text : List Char) : written (words text) = text := by
  fun_induction words text with
  | case1 => rfl
  | case2 text nonempty inductionHypothesis =>
    rw [written_cons, inductionHypothesis]
    exact cut_append text

theorem text_ne_nil_of_mem_words {text : List Char} : ∀ word ∈ words text, word.text ≠ [] := by
  fun_induction words text with
  | case1 => simp
  | case2 text nonempty inductionHypothesis =>
    intro word member
    rcases List.mem_cons.mp member with rfl | member
    · exact cut_lexeme_ne_nil nonempty
    · exact inductionHypothesis word member

theorem kind_cut_ne_end (text : List Char) : (cut text).kind ≠ .endOfInput := by
  intro isEnd
  have found : ofKind? (cut text).kind text = some ((cut text).lexeme, (cut text).rest) :=
    ofKind?_of_cut rfl (by simp [isEnd])
  rw [isEnd] at found
  cases found

theorem kind_ne_end_of_mem_words {text : List Char} :
    ∀ word ∈ words text, word.kind ≠ .endOfInput := by
  fun_induction words text with
  | case1 => simp
  | case2 text nonempty inductionHypothesis =>
    intro word member
    rcases List.mem_cons.mp member with rfl | member
    · exact kind_cut_ne_end text
    · exact inductionHypothesis word member

/-! ## Cuts behind a word -/

theorem rest_of_cut_invalid {text lexeme rest : List Char}
    (cuts : cut text = ⟨.invalid, lexeme, rest⟩) : rest = [] := by
  unfold cut at cuts
  split at cuts
  · cases cuts
  · split at cuts
    · cases cuts
    · split at cuts
      · cases cuts
      · split at cuts
        · cases cuts
        · cases cuts
          rfl

theorem Stops.of_isPrefix {inClass : Char → Bool} {front text : List Char}
    (stops : Stops inClass text) (isFront : front <+: text) : Stops inClass front := by
  obtain ⟨back, rfl⟩ := isFront
  cases front with
  | nil => exact stops_nil inClass
  | cons first others => exact stops_cons others (stops first rfl)

theorem fraction_eq_nil_iff {text : List Char} :
    fraction text = ([], text) ↔
      ∀ digit rest, text = '.' :: digit :: rest → digit.isDigit = false := by
  unfold fraction
  split
  · next digit rest =>
    cases isDigit : digit.isDigit with
    | true =>
      simp only [if_true, Prod.mk.injEq, reduceCtorEq, false_and, false_iff]
      intro never
      rw [never digit rest rfl] at isDigit
      contradiction
    | false =>
      simp only [Bool.false_eq_true, if_false, true_iff]
      intro other others shape
      cases shape
      exact isDigit
  · next noPoint =>
    simp only [true_iff]
    intro digit rest shape
    exact absurd shape (noPoint digit rest)

/-- What follows a numeral may be cut short. -/
theorem Closes.of_isPrefix {numeral : Numeral} {front text : List Char}
    (closes : Closes numeral text) (isFront : front <+: text) : Closes numeral front := by
  refine ⟨closes.stops.of_isPrefix isFront, fun integer => ?_⟩
  have noFraction := fraction_eq_nil_iff.mp (closes.noFraction integer)
  obtain ⟨back, rfl⟩ := isFront
  rw [fraction_eq_nil_iff]
  rintro digit rest rfl
  exact noFraction digit (rest ++ back) rfl

/-- A text that is cut short behind its first word still has that word. -/
theorem cut_of_isPrefix {kind : TokenKind} {text lexeme rest front : List Char}
    (cuts : cut text = ⟨kind, lexeme, rest⟩) (isFront : front <+: rest) :
    cut (lexeme ++ front) = ⟨kind, lexeme, front⟩ := by
  cases kind with
  | comma =>
    obtain ⟨-, separator, rfl, stops⟩ :=
      separator?_eq_some_iff.mp ((cut_eq_iff (by decide)).mp cuts)
    exact cut_separator separator (stops.of_isPrefix isFront)
  | ellipsis =>
    obtain ⟨-, rfl⟩ := ellipsis?_eq_some_iff.mp ((cut_eq_iff (by decide)).mp cuts)
    exact cut_ellipsis front
  | infinity =>
    obtain ⟨-, sign, rfl⟩ := infinity?_eq_some_iff.mp ((cut_eq_iff (by decide)).mp cuts)
    exact cut_infinity sign front
  | number =>
    obtain ⟨-, numeral, rfl, closes⟩ :=
      number?_eq_some_iff.mp ((cut_eq_iff (by decide)).mp cuts)
    exact cut_numeral (closes.of_isPrefix isFront)
  | invalid =>
    obtain rfl := rest_of_cut_invalid cuts
    obtain rfl := List.prefix_nil.mp isFront
    have whole := cut_append text
    rw [cuts] at whole
    rw [← whole] at cuts
    exact cuts
  | endOfInput =>
    have noEnd := kind_cut_ne_end text
    rw [cuts] at noEnd
    contradiction

theorem words_append {text : List Char} {before after : List Word}
    (shape : words text = before ++ after) : words (written after) = after := by
  induction before generalizing text with
  | nil =>
    rw [List.nil_append] at shape
    rw [← shape, written_words]
  | cons word before inductionHypothesis =>
    obtain ⟨rest, -, later⟩ := words_eq_cons shape
    exact inductionHypothesis later

/-- A text that is cut short behind a boundary keeps the words in front of it. -/
theorem words_written_append {text : List Char} {before after : List Word}
    (shape : words text = before ++ after) {front : List Char}
    (isFront : front <+: written after) :
    words (written before ++ front) = before ++ words front := by
  induction before generalizing text with
  | nil => rfl
  | cons word before inductionHypothesis =>
    obtain ⟨rest, cuts, later⟩ := words_eq_cons shape
    have restWritten : rest = written before ++ written after := by
      rw [← written_append, ← written_words rest, later]
      rfl
    have isFrontOfRest : written before ++ front <+: rest := by
      rw [restWritten]
      exact (List.prefix_append_right_inj (written before)).mpr isFront
    have nonempty : word.text ≠ [] :=
      text_ne_nil_of_mem_words word (by rw [shape]; exact List.mem_cons_self)
    rw [written_cons, List.append_assoc,
      words_of_cut (cut_of_isPrefix cuts isFrontOfRest) nonempty, inductionHypothesis later]
    rfl

theorem words_written {text : List Char} {before after : List Word}
    (shape : words text = before ++ after) : words (written before) = before := by
  have kept := words_written_append shape (List.nil_prefix (l := written after))
  rwa [List.append_nil, words_nil, List.append_nil] at kept

/-! ## Cuts inside a word -/

theorem isSome_ofKind?_of_isPrefix {kind : TokenKind} {front text lexeme rest : List Char}
    (found : ofKind? kind front = some (lexeme, rest)) (isFront : front <+: text) :
    (ofKind? kind text).isSome = true := by
  obtain ⟨back, rfl⟩ := isFront
  cases kind with
  | comma =>
    obtain ⟨rfl, separator, rfl, -⟩ := separator?_eq_some_iff.mp found
    have comma : Stops Text.isBlank (',' :: (separator.after ++ rest ++ back)) :=
      stops_cons _ rfl
    have grouped : separator.text ++ rest ++ back =
        separator.before ++ ',' :: (separator.after ++ rest ++ back) := by
      simp [Separator.text]
    rw [ofKind?, separator?, grouped, dropWhile_append_of_stops separator.blankBefore comma]
    rfl
  | ellipsis =>
    obtain ⟨rfl, rfl⟩ := ellipsis?_eq_some_iff.mp found
    rfl
  | infinity =>
    obtain ⟨rfl, sign, rfl⟩ := infinity?_eq_some_iff.mp found
    have longer : infinity? (infinityText sign ++ rest ++ back) =
        some (infinityText sign, rest ++ back) :=
      infinity?_eq_some_iff.mpr ⟨List.append_assoc _ _ _, sign, rfl⟩
    rw [ofKind?, longer]
    rfl
  | number =>
    obtain ⟨rfl, numeral, rfl, -⟩ := number?_eq_some_iff.mp found
    obtain ⟨first, others, shape, digit, -⟩ := exists_digit_cons numeral.whole
    have grouped : numeral.text ++ rest ++ back =
        numeral.sign.text ++ (numeral.whole.text ++ (numeral.fractionText ++ rest ++ back)) := by
      simp [Numeral.text]
    have starts : (numeral.whole.text ++ (numeral.fractionText ++ rest ++ back)).takeWhile
        Char.isDigit ≠ [] := by
      simp [shape, digit]
    rw [ofKind?, number?, grouped, splitSign_text_append numeral.sign (stops_isSign_digits _ _)]
    dsimp only
    rw [if_neg starts]
    rfl
  | invalid => cases found
  | endOfInput => cases found

/-- A text that is cut short starts with a word of the same class, or with none at all. -/
theorem kind_cut_of_isPrefix {front text : List Char} (isFront : front <+: text) :
    (cut front).kind = (cut text).kind ∨ (cut front).kind = .invalid := by
  rcases cuts : cut front with ⟨kind, lexeme, rest⟩
  by_cases valid : kind = .invalid
  · exact .inr valid
  · have found := isSome_ofKind?_of_isPrefix (ofKind?_of_cut cuts valid) isFront
    obtain ⟨⟨more, others⟩, longer⟩ := Option.isSome_iff_exists.mp found
    rw [cut_of_ofKind? longer]
    exact .inl rfl

/-- A separator that something follows is not lengthened by what comes behind that. -/
theorem cut_separator_of_isPrefix {front text lexeme rest : List Char}
    (cuts : cut front = ⟨.comma, lexeme, rest⟩) (isFront : front <+: text)
    (goesOn : rest ≠ []) : ∃ others, cut text = ⟨.comma, lexeme, others⟩ ∧ rest <+: others := by
  obtain ⟨rfl, separator, rfl, stops⟩ :=
    separator?_eq_some_iff.mp ((cut_eq_iff (by decide)).mp cuts)
  obtain ⟨back, rfl⟩ := isFront
  refine ⟨rest ++ back, ?_, List.prefix_append rest back⟩
  rw [List.append_assoc]
  apply cut_separator
  cases rest with
  | nil => contradiction
  | cons first others => exact stops_cons _ (stops first rfl)

end Progressions.Lexeme
