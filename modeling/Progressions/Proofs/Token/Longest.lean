import Progressions.Proofs.Grammar.Sentence
import Progressions.Proofs.Token.Partition

/-!
# The longest word at every place

Each class of words is a language, given by how its words are built and not by a reader.  Every
token but the end takes the longest front of what is left of the source that is a word of its class,
and no word of any other class starts there; so it does not matter in which order the classes are
tried.  A token is invalid exactly where no word starts.
-/

set_option autoImplicit false

namespace Progressions

namespace Lexeme

def IsWord : TokenKind → List Char → Prop
  | .comma, text => ∃ separator : Separator, separator.text = text
  | .ellipsis, text => text = ellipsisText
  | .infinity, text => ∃ sign, infinityText sign = text
  | .number, text => ∃ numeral : Numeral, numeral.text = text
  | .invalid, _ | .endOfInput, _ => False

/-- The word is the longest front of the text in the language of the class. -/
structure IsLongestWord (kind : TokenKind) (word text : List Char) : Prop where
  isWord : IsWord kind word
  isFront : word <+: text
  longest : ∀ front, front <+: text → IsWord kind front → front.length ≤ word.length

variable {kind : TokenKind} {text lexeme rest : List Char}

theorem cut_of_isWord (isWord : IsWord kind text) : cut text = ⟨kind, text, []⟩ := by
  cases kind with
  | comma =>
    obtain ⟨separator, rfl⟩ := isWord
    have cuts := cut_separator separator (stops_nil Text.isBlank)
    rwa [List.append_nil] at cuts
  | ellipsis =>
    obtain rfl := isWord
    exact cut_ellipsis []
  | infinity =>
    obtain ⟨sign, rfl⟩ := isWord
    have cuts := cut_infinity sign []
    rwa [List.append_nil] at cuts
  | number =>
    obtain ⟨numeral, rfl⟩ := isWord
    have cuts := cut_numeral (closes_of_stops numeral (stops_nil _))
    rwa [List.append_nil] at cuts
  | invalid => exact absurd isWord id
  | endOfInput => exact absurd isWord id

theorem isWord_of_cut (cuts : cut text = ⟨kind, lexeme, rest⟩) (valid : kind ≠ .invalid) :
    IsWord kind lexeme := by
  have found := ofKind?_of_cut cuts valid
  cases kind with
  | comma =>
    obtain ⟨-, separator, isText, -⟩ := separator?_eq_some_iff.mp found
    exact ⟨separator, isText⟩
  | ellipsis => exact (ellipsis?_eq_some_iff.mp found).2
  | infinity => exact (infinity?_eq_some_iff.mp found).2
  | number =>
    obtain ⟨-, numeral, isText, -⟩ := number?_eq_some_iff.mp found
    exact ⟨numeral, isText⟩
  | invalid => exact absurd rfl valid
  | endOfInput => cases found

theorem kind_cut_of_isWord {front : List Char} (isWord : IsWord kind front)
    (isFront : front <+: text) : (cut text).kind = kind := by
  have valid : kind ≠ .invalid := by
    rintro rfl
    exact isWord
  have found := ofKind?_of_cut (cut_of_isWord isWord) valid
  obtain ⟨⟨word, others⟩, longer⟩ :=
    Option.isSome_iff_exists.mp (isSome_ofKind?_of_isPrefix found isFront)
  rw [cut_of_ofKind? longer]

/-- What is cut off is the longest word: a longer one would be cut where it is, too. -/
theorem isLongestWord_of_cut (cuts : cut text = ⟨kind, lexeme, rest⟩) (valid : kind ≠ .invalid) :
    IsLongestWord kind lexeme text := by
  have whole := cut_append text
  rw [cuts] at whole
  have lexemeFront : lexeme <+: text := ⟨rest, whole⟩
  refine ⟨isWord_of_cut cuts valid, lexemeFront, fun front isFront isWord => ?_⟩
  rcases Nat.le_total front.length lexeme.length with shorter | longer
  · exact shorter
  · obtain ⟨more, rfl⟩ := List.prefix_of_prefix_length_le lexemeFront isFront longer
    rw [← whole] at isFront
    have moreFront := (List.prefix_append_right_inj lexeme).mp isFront
    -- A longer word of the class would have been cut off itself.
    have same := (cut_of_isPrefix cuts moreFront).symm.trans (cut_of_isWord isWord)
    exact Nat.le_of_eq (congrArg List.length (Piece.mk.inj same).2.1).symm

theorem kind_cut_eq_invalid_iff :
    (cut text).kind = .invalid ↔ ∀ kind front, front <+: text → ¬ IsWord kind front := by
  constructor
  · intro invalid kind front isFront isWord
    rw [kind_cut_of_isWord isWord isFront] at invalid
    subst invalid
    exact isWord
  · intro never
    by_contra valid
    have word := isLongestWord_of_cut rfl valid
    exact never _ _ word.isFront word.isWord

theorem signed_of_words {first second : Word} {later : List Word}
    (shape : words text = first :: second :: later) (firstNumber : first.kind = .number)
    (secondNumber : second.kind = .number) :
    ∃ sign others, second.text = sign :: others ∧ isSign sign = true := by
  obtain ⟨rest, cuts, behind⟩ := words_eq_cons shape
  rw [firstNumber] at cuts
  obtain ⟨-, numeral, -, closes⟩ := number?_eq_some_iff.mp ((cut_eq_iff (by decide)).mp cuts)
  obtain ⟨others, cuts, -⟩ := words_eq_cons behind
  rw [secondNumber] at cuts
  obtain ⟨rfl, next, isText, -⟩ := number?_eq_some_iff.mp ((cut_eq_iff (by decide)).mp cuts)
  have stops := closes.stops
  rw [← isText] at stops ⊢
  have signed := signed_of_stops stops
  cases sign : next.sign with
  | absent => exact absurd sign signed
  | plus => exact ⟨'+', _, by rw [Numeral.text, sign]; rfl, rfl⟩
  | minus => exact ⟨'-', _, by rw [Numeral.text, sign]; rfl, rfl⟩

end Lexeme

namespace Token

structure Takes (token : Token) (text : List Char) : Prop where
  longest : token.kind ≠ .invalid → Lexeme.IsLongestWord token.kind token.lexeme.toList text
  alone : ∀ kind front, front <+: text → Lexeme.IsWord kind front → kind = token.kind
  invalid : token.kind = .invalid ↔ ∀ kind front, front <+: text → ¬ Lexeme.IsWord kind front
  /-- A number without a point is the integer of its sign and its digits. -/
  integer : ∀ (sign : Sign) (digits : DigitRun), token.kind = .number →
    token.lexeme.toList = sign.text ++ digits.text →
      token.value = some (.int (sign.apply (Nat.ofDigitChars 10 digits.text 0)))

theorem takes_of_cut {text rest : List Char} {word : Word}
    (cuts : Lexeme.cut text = ⟨word.kind, word.text, rest⟩)
    (within : word.integerDigits ≤ digitLimit) (location : Location) :
    Takes ⟨word.kind, String.ofList word.text, word.number, location⟩ text := by
  have isKind : (Lexeme.cut text).kind = word.kind := by rw [cuts]
  constructor
  case longest =>
    intro valid
    rw [String.toList_ofList]
    exact Lexeme.isLongestWord_of_cut cuts valid
  case alone =>
    intro kind front isFront isWord
    exact (Lexeme.kind_cut_of_isWord isWord isFront).symm.trans isKind
  case invalid =>
    rw [← Lexeme.kind_cut_eq_invalid_iff, isKind]
  case integer =>
    intro sign digits isNumber isText
    obtain ⟨kind, characters⟩ := word
    obtain rfl : kind = .number := isNumber
    have isNumeral : characters = Numeral.text ⟨sign, digits, none⟩ := by
      rw [String.toList_ofList] at isText
      exact isText.trans (List.append_nil _).symm
    subst isNumeral
    exact Lexeme.number_numeral within

variable {source : String}

/-- A token that is not the end stands where the words in front of it end, and is read from the
word that stands there. -/
theorem exists_takes {token : Token}
    (within : Lexeme.IntegersWithin digitLimit source.toList)
    (member : token ∈ ofWords source 0 (Lexeme.words source.toList))
    (goesOn : token.kind ≠ .endOfInput) :
    ∃ offset : Nat, token.location.offset = offset ∧ token.Takes (source.toList.drop offset) := by
  obtain ⟨front, back, split⟩ := List.append_of_mem member
  obtain ⟨before, after, shape, -, tokens⟩ := exists_words_of_split split
  cases after with
  | nil =>
    obtain ⟨rfl, -⟩ := List.cons.inj tokens
    contradiction
  | cons word later =>
    obtain ⟨rfl, -⟩ := List.cons.inj tokens
    have left : source.toList.drop (Lexeme.written before).length =
        Lexeme.written (word :: later) := by
      rw [← Lexeme.written_words source.toList, shape, Lexeme.written_append, List.drop_left]
    obtain ⟨rest, cuts, -⟩ := Lexeme.words_eq_cons (Lexeme.words_append shape)
    refine ⟨(Lexeme.written before).length, by simp [Location.ofOffset], ?_⟩
    rw [left]
    exact takes_of_cut cuts (within word (by rw [shape]; simp)) _

theorem signed_of_neighbours {front back : List Token} {first second : Token}
    (split : ofWords source 0 (Lexeme.words source.toList) = front ++ first :: second :: back)
    (firstNumber : first.kind = .number) (secondNumber : second.kind = .number) :
    ∃ sign others, second.lexeme.toList = sign :: others ∧ Lexeme.isSign sign = true := by
  obtain ⟨before, after, shape, -, tokens⟩ := exists_words_of_split split
  match after with
  | [] =>
    obtain ⟨rfl, -⟩ := List.cons.inj tokens
    contradiction
  | [_] =>
    obtain ⟨-, later⟩ := List.cons.inj tokens
    obtain ⟨rfl, -⟩ := List.cons.inj later
    contradiction
  | word :: next :: later =>
    obtain ⟨rfl, others⟩ := List.cons.inj tokens
    obtain ⟨rfl, -⟩ := List.cons.inj others
    rw [String.toList_ofList]
    exact Lexeme.signed_of_words (Lexeme.words_append shape) firstNumber secondNumber

end Token

/-- Unless an integer literal has more digits than the limit, every token but the end takes the
longest word at its place, whatever order the classes are tried in, and a number that directly
follows a number carries a sign. -/
theorem tokenize_takes_longest (source : String) :
    (∃ tokens, tokenize source = .ok tokens ∧
      (∀ token ∈ tokens, token.kind ≠ .endOfInput →
        ∃ offset : Nat, token.location.offset = offset ∧
          token.Takes (source.toList.drop offset)) ∧
      ∀ front first second back, tokens = front ++ first :: second :: back →
        first.kind = .number → second.kind = .number →
          ∃ sign others, second.lexeme.toList = sign :: others ∧ Lexeme.isSign sign = true) ∨
      ∃ word ∈ Lexeme.words source.toList, digitLimit < word.integerDigits ∧
        tokenize source = .error (.literalTooLong word.integerDigits) := by
  by_cases within : Lexeme.IntegersWithin digitLimit source.toList
  · refine .inl ⟨_, Token.tokenize_eq within, fun token member goesOn => ?_, ?_⟩
    · exact Token.exists_takes within member goesOn
    · intro front first second back split firstNumber secondNumber
      exact Token.signed_of_neighbours split firstNumber secondNumber
  · exact .inr (Token.tokenize_error within)

end Progressions
