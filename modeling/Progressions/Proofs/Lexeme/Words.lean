import Progressions.Proofs.Lexeme.Cut
import Progressions.Token.Reading

/-!
# The words of a text

Cutting word after word off a text gives its words, whatever the length of its literals.
`read_eq` says that reading a text gives a token for each word, with the number the word stands
for, as long as no integer literal has too many digits.
-/

set_option autoImplicit false

namespace Progressions

/-- A word of a text with its class; an invalid rest is a word too. -/
structure Word where
  kind : TokenKind
  text : List Char

namespace Word

def number (word : Word) : Option Number :=
  match Lexeme.Piece.value ⟨word.kind, word.text, []⟩ with
  | .ok value => value
  | .error _ => none

/-- How many digits an integer literal has; all other words count none. -/
def integerDigits (word : Word) : Nat :=
  if word.kind = .number ∧ '.' ∉ word.text then word.text.countP Char.isDigit else 0

end Word

namespace Lexeme

def words (text : List Char) : List Word :=
  if text = [] then [] else ⟨(cut text).kind, (cut text).lexeme⟩ :: words (cut text).rest
termination_by text.length
decreasing_by exact length_cut_rest_lt ‹_›

/-- No integer literal among the words of a text has more digits than the limit. -/
def IntegersWithin (limit : Nat) (text : List Char) : Prop :=
  ∀ word ∈ words text, word.integerDigits ≤ limit

instance (limit : Nat) (text : List Char) : Decidable (IntegersWithin limit text) :=
  inferInstanceAs (Decidable (∀ word ∈ words text, word.integerDigits ≤ limit))

theorem words_nil : words [] = [] := by
  rw [words, if_pos rfl]

theorem words_of_cut {text lexeme rest : List Char} {kind : TokenKind}
    (cuts : cut text = ⟨kind, lexeme, rest⟩) (nonempty : lexeme ≠ []) :
    words text = ⟨kind, lexeme⟩ :: words rest := by
  have whole := cut_append text
  rw [cuts] at whole
  have textNonempty : text ≠ [] := by
    rintro rfl
    exact nonempty (List.append_eq_nil_iff.mp whole).1
  rw [words, if_neg textNonempty, cuts]

theorem words_eq_cons {text : List Char} {word : Word} {later : List Word}
    (shape : words text = word :: later) :
    ∃ rest, cut text = ⟨word.kind, word.text, rest⟩ ∧ words rest = later := by
  by_cases empty : text = []
  · rw [empty, words_nil] at shape
    contradiction
  · rw [words, if_neg empty] at shape
    obtain ⟨rfl, rfl⟩ := List.cons.inj shape
    exact ⟨(cut text).rest, rfl, rfl⟩

theorem words_eq_nil {text : List Char} (shape : words text = []) : text = [] := by
  by_contra nonempty
  rw [words, if_neg nonempty] at shape
  contradiction

/-! ## The words of each class -/

theorem numeral_text_ne_nil (numeral : Numeral) : numeral.text ≠ [] := by
  obtain ⟨first, others, shape, -⟩ := exists_opensNumeral_cons numeral
  rw [shape]
  exact List.cons_ne_nil _ _

theorem separator_text_ne_nil (separator : Separator) : separator.text ≠ [] := by
  obtain ⟨first, others, shape, -⟩ := exists_opensSeparator_cons separator
  rw [shape]
  exact List.cons_ne_nil _ _

theorem words_numeral {numeral : Numeral} {rest : List Char} (closes : Closes numeral rest) :
    words (numeral.text ++ rest) = ⟨.number, numeral.text⟩ :: words rest :=
  words_of_cut (cut_numeral closes) (numeral_text_ne_nil numeral)

theorem words_separator (separator : Separator) {rest : List Char}
    (stops : Stops Text.isBlank rest) :
    words (separator.text ++ rest) = ⟨.comma, separator.text⟩ :: words rest :=
  words_of_cut (cut_separator separator stops) (separator_text_ne_nil separator)

theorem words_ellipsis (rest : List Char) :
    words (ellipsisText ++ rest) = ⟨.ellipsis, ellipsisText⟩ :: words rest :=
  words_of_cut (cut_ellipsis rest) (by decide)

theorem words_infinity (sign : Sign) (rest : List Char) :
    words (infinityText sign ++ rest) = ⟨.infinity, infinityText sign⟩ :: words rest :=
  words_of_cut (cut_infinity sign rest) (by cases sign <;> decide)

/-! ## Numbers of words -/

theorem ofLiteral_text (numeral : Numeral)
    (short : numeral.fraction = none → numeral.whole.text.length ≤ digitLimit) :
    Number.ofLiteral numeral.text = .ok numeral.value := by
  obtain ⟨sign, whole, fraction⟩ := numeral
  have minus : (sign.text == ['-']) = (sign == .minus) := by cases sign <;> rfl
  cases fraction with
  | none =>
    have stops := stops_nil Char.isDigit
    have unsigned := stops_isSign_digits whole []
    have signs : Number.signed sign.text (Nat.ofDigitChars 10 whole.text 0) =
        sign.apply (Nat.ofDigitChars 10 whole.text 0) := by
      cases sign <;> rfl
    unfold Number.ofLiteral Numeral.text Numeral.fractionText Numeral.value
    dsimp only
    rw [List.append_assoc, splitSign_text_append sign unsigned]
    dsimp only
    rw [takeWhile_append_of_stops whole.digits stops, dropWhile_append_of_stops whole.digits stops]
    simp only [if_neg (Nat.not_lt.mpr (short rfl)), signs]
  | some places =>
    have stops : Stops Char.isDigit ('.' :: places.text) := stops_cons _ rfl
    have unsigned := stops_isSign_digits whole ('.' :: places.text)
    unfold Number.ofLiteral Numeral.text Numeral.fractionText Numeral.value
    dsimp only
    rw [List.append_assoc, splitSign_text_append sign unsigned]
    dsimp only
    rw [takeWhile_append_of_stops whole.digits stops, dropWhile_append_of_stops whole.digits stops]
    simp only [minus]

/-- Only the digits in front of a point are counted, and those of an integer may be too many. -/
theorem ofLiteral_long {numeral : Numeral} (integer : numeral.fraction = none)
    (long : digitLimit < numeral.whole.text.length) :
    Number.ofLiteral numeral.text = .error (.literalTooLong numeral.whole.text.length) := by
  obtain ⟨sign, whole, fraction⟩ := numeral
  subst integer
  have stops := stops_nil Char.isDigit
  have unsigned := stops_isSign_digits whole []
  unfold Number.ofLiteral Numeral.text Numeral.fractionText
  dsimp only
  rw [List.append_assoc, splitSign_text_append sign unsigned]
  dsimp only
  rw [takeWhile_append_of_stops whole.digits stops, dropWhile_append_of_stops whole.digits stops]
  exact if_pos long

theorem point_notMem_integer {sign : Sign} {whole : DigitRun} :
    '.' ∉ Numeral.text ⟨sign, whole, none⟩ := by
  intro member
  simp only [Numeral.text, Numeral.fractionText, List.append_nil, List.mem_append] at member
  rcases member with member | member
  · cases sign <;> revert member <;> decide
  · have := whole.digits '.' member
    contradiction

/-- The digits of a numeral without a fractional part are counted, and none of other ones. -/
theorem integerDigits_numeral (numeral : Numeral) :
    Word.integerDigits ⟨.number, numeral.text⟩ =
      if numeral.fraction = none then numeral.whole.text.length else 0 := by
  obtain ⟨sign, whole, fraction⟩ := numeral
  cases fraction with
  | none =>
    have signs : sign.text.countP Char.isDigit = 0 := by cases sign <;> rfl
    have digits : whole.text.countP Char.isDigit = whole.text.length :=
      List.countP_eq_length.mpr whole.digits
    simp only [Word.integerDigits, point_notMem_integer, not_false_eq_true, and_self, if_true]
    simp only [Numeral.text, Numeral.fractionText, List.append_nil, List.countP_append, signs,
      digits, Nat.zero_add]
  | some places =>
    simp [Word.integerDigits, Numeral.text, Numeral.fractionText]

theorem number_numeral {numeral : Numeral}
    (within : Word.integerDigits ⟨.number, numeral.text⟩ ≤ digitLimit) :
    Word.number ⟨.number, numeral.text⟩ = some numeral.value := by
  rw [integerDigits_numeral] at within
  have short : numeral.fraction = none → numeral.whole.text.length ≤ digitLimit := by
    intro integer
    rwa [if_pos integer] at within
  simp only [Word.number, Piece.value, ofLiteral_text numeral short, Except.map]

theorem number_infinity (sign : Sign) :
    Word.number ⟨.infinity, infinityText sign⟩ =
      some (.float (.infinite (sign == .minus))) := by
  cases sign <;> rfl

/-! ## Reading -/

theorem value_of_cut {text lexeme rest : List Char} {kind : TokenKind}
    (cuts : cut text = ⟨kind, lexeme, rest⟩)
    (within : Word.integerDigits ⟨kind, lexeme⟩ ≤ digitLimit) :
    Piece.value ⟨kind, lexeme, rest⟩ = .ok (Word.number ⟨kind, lexeme⟩) := by
  cases kind with
  | number =>
    have found := (cut_eq_iff (by decide)).mp cuts
    obtain ⟨-, numeral, rfl, -⟩ := number?_eq_some_iff.mp found
    rw [number_numeral within]
    rw [integerDigits_numeral] at within
    have short : numeral.fraction = none → numeral.whole.text.length ≤ digitLimit := by
      intro integer
      rwa [if_pos integer] at within
    simp only [Piece.value, ofLiteral_text numeral short, Except.map]
  | infinity => rfl
  | comma => rfl
  | ellipsis => rfl
  | invalid => rfl
  | endOfInput => rfl

theorem value_of_cut_long {text lexeme rest : List Char} {kind : TokenKind}
    (cuts : cut text = ⟨kind, lexeme, rest⟩)
    (long : digitLimit < Word.integerDigits ⟨kind, lexeme⟩) :
    Piece.value ⟨kind, lexeme, rest⟩ =
      .error (.literalTooLong (Word.integerDigits ⟨kind, lexeme⟩)) := by
  have isNumber : kind = .number := by
    by_contra other
    simp [Word.integerDigits, other] at long
  subst isNumber
  have found := (cut_eq_iff (by decide)).mp cuts
  obtain ⟨-, numeral, rfl, -⟩ := number?_eq_some_iff.mp found
  rw [integerDigits_numeral] at long ⊢
  by_cases integer : numeral.fraction = none
  · rw [if_pos integer] at long ⊢
    simp only [Piece.value, ofLiteral_long integer long, Except.map]
  · rw [if_neg integer] at long
    omega

end Lexeme

namespace Token

def word (token : Token) : Word := ⟨token.kind, token.lexeme.toList⟩

/-- The tokens of words that stand in the source from the offset on, and the end. -/
def ofWords (source : String) : Nat → List Word → List Token
  | offset, [] => [atEnd source offset]
  | offset, word :: later =>
    ⟨word.kind, String.ofList word.text, word.number, .ofOffset source offset⟩ ::
      ofWords source (offset + word.text.length) later

theorem read_eq (source : String) (offset : Nat) (text : List Char)
    (within : Lexeme.IntegersWithin digitLimit text) :
    read source offset text =
      ⟨ofWords source offset (Lexeme.words text), offset + text.length, none⟩ := by
  fun_induction Lexeme.words text generalizing offset with
  | case1 =>
    rw [read, if_pos rfl]
    rfl
  | case2 text nonempty inductionHypothesis =>
    have shape := Lexeme.words.eq_def text
    rw [if_neg nonempty] at shape
    have first := within _ (by rw [shape]; exact List.mem_cons_self)
    have later : Lexeme.IntegersWithin digitLimit (Lexeme.cut text).rest := by
      intro word member
      exact within word (by rw [shape]; exact List.mem_cons_of_mem _ member)
    have value : (Lexeme.cut text).value =
        .ok (Word.number ⟨(Lexeme.cut text).kind, (Lexeme.cut text).lexeme⟩) :=
      Lexeme.value_of_cut rfl first
    have length : (Lexeme.cut text).lexeme.length + (Lexeme.cut text).rest.length =
        text.length := by
      rw [← List.length_append, Lexeme.cut_append]
    rw [read, if_neg nonempty]
    dsimp only
    rw [value]
    dsimp only
    rw [inductionHypothesis (offset + (Lexeme.cut text).lexeme.length) later, Nat.add_assoc, length]
    rfl

theorem map_kind_ofWords (source : String) (offset : Nat) (words : List Word) :
    (ofWords source offset words).map Token.kind = words.map Word.kind ++ [.endOfInput] := by
  induction words generalizing offset with
  | nil => rfl
  | cons word later inductionHypothesis => simp [ofWords, inductionHypothesis]

/-- Reading a text within the digit limit gives the tokens of its words. -/
theorem tokenize_eq {source : String} (within : Lexeme.IntegersWithin digitLimit source.toList) :
    tokenize source = .ok (ofWords source 0 (Lexeme.words source.toList)) := by
  unfold tokenize
  rw [read_eq source 0 source.toList within]

/-- Reading stops at the first integer literal with too many digits. -/
theorem read_error (source : String) (offset : Nat) (text : List Char)
    (beyond : ¬ Lexeme.IntegersWithin digitLimit text) :
    ∃ word ∈ Lexeme.words text, digitLimit < word.integerDigits ∧
      (read source offset text).error = some (.literalTooLong word.integerDigits) := by
  fun_induction Lexeme.words text generalizing offset with
  | case1 =>
    refine absurd ?_ beyond
    intro word member
    rw [Lexeme.words_nil] at member
    contradiction
  | case2 text nonempty inductionHypothesis =>
    have shape := Lexeme.words.eq_def text
    rw [if_neg nonempty] at shape
    let first : Word := ⟨(Lexeme.cut text).kind, (Lexeme.cut text).lexeme⟩
    rw [read, if_neg nonempty]
    dsimp only
    by_cases long : digitLimit < first.integerDigits
    · have value : (Lexeme.cut text).value = .error (.literalTooLong first.integerDigits) :=
        Lexeme.value_of_cut_long rfl long
      refine ⟨first, List.mem_cons_self, long, ?_⟩
      rw [value]
    · have value : (Lexeme.cut text).value = .ok first.number :=
        Lexeme.value_of_cut rfl (Nat.not_lt.mp long)
      have laterBeyond : ¬ Lexeme.IntegersWithin digitLimit (Lexeme.cut text).rest := by
        intro within
        apply beyond
        intro word member
        rw [shape] at member
        rcases List.mem_cons.mp member with rfl | member
        · exact Nat.not_lt.mp long
        · exact within word member
      obtain ⟨word, member, tooLong, stopped⟩ :=
        inductionHypothesis (offset + (Lexeme.cut text).lexeme.length) laterBeyond
      refine ⟨word, List.mem_cons_of_mem _ member, tooLong, ?_⟩
      rw [value]
      exact stopped

theorem tokenize_error {source : String}
    (beyond : ¬ Lexeme.IntegersWithin digitLimit source.toList) :
    ∃ word ∈ Lexeme.words source.toList, digitLimit < word.integerDigits ∧
      tokenize source = .error (.literalTooLong word.integerDigits) := by
  obtain ⟨word, member, long, stopped⟩ := read_error source 0 source.toList beyond
  refine ⟨word, member, long, ?_⟩
  unfold tokenize
  dsimp only
  rw [stopped]

end Token

end Progressions
