import Progressions.Proofs.Lexeme.Boundaries

/-!
# Tokens cut their source into pieces

Reading loses no character and reads none twice: each token stands where the lexemes in front of
it end.  The end token stands behind the last character, an invalid token takes all that is left,
and every other token is one word.
-/

set_option autoImplicit false

namespace Progressions

namespace Token

def span (tokens : List Token) : Nat := (tokens.flatMap (·.lexeme.toList)).length

/-- The tokens are a source cut into pieces, with an end token behind them. -/
structure Partition (source : String) (tokens : List Token) : Prop where
  whole : tokens.flatMap (·.lexeme.toList) = source.toList
  located : ∀ front token back, tokens = front ++ token :: back →
    token.location = ⟨source, span front + 1, span front⟩
  nonempty : ∀ front token back, tokens = front ++ token :: back → back ≠ [] →
    token.lexeme ≠ ""
  ended : ∃ front, tokens = front ++ [atEnd source source.length] ∧
    ∀ token ∈ front, token.kind ≠ .endOfInput
  /-- What no word starts with is one token, which the end follows at once. -/
  remainder : ∀ front token back, tokens = front ++ token :: back → token.kind = .invalid →
    token.lexeme.toList = source.toList.drop (span front) ∧
      back = [atEnd source source.length] ∧ ∀ other ∈ front, other.kind ≠ .invalid
  valued : ∀ token ∈ tokens,
    token.value.isSome = true ↔ token.kind = .number ∨ token.kind = .infinity

/-! ## The tokens of words -/

theorem exists_words_of_split {source : String} {offset : Nat} {words : List Word}
    {front back : List Token} {token : Token}
    (split : ofWords source offset words = front ++ token :: back) :
    ∃ before after, words = before ++ after ∧ front.map word = before ∧
      token :: back = ofWords source (offset + (Lexeme.written before).length) after := by
  induction front generalizing offset words with
  | nil => exact ⟨[], words, rfl, rfl, split.symm⟩
  | cons first front inductionHypothesis =>
    cases words with
    | nil => simp [ofWords] at split
    | cons word later =>
      rw [ofWords, List.cons_append] at split
      obtain ⟨rfl, splitLater⟩ := List.cons.inj split
      obtain ⟨before, after, rfl, read, tokens⟩ := inductionHypothesis splitLater
      refine ⟨word :: before, after, rfl, ?_, ?_⟩
      · simp [read, Token.word]
      · rw [tokens, Lexeme.written_cons, List.length_append, Nat.add_assoc]

theorem span_eq_length_written (tokens : List Token) :
    span tokens = (Lexeme.written (tokens.map word)).length := by
  simp only [span, Lexeme.written, List.flatMap_map, word]

theorem flatMap_lexeme_ofWords (source : String) (offset : Nat) (words : List Word) :
    (ofWords source offset words).flatMap (·.lexeme.toList) = Lexeme.written words := by
  induction words generalizing offset with
  | nil => rfl
  | cons word later inductionHypothesis =>
    rw [ofWords, List.flatMap_cons, inductionHypothesis, Lexeme.written_cons]
    simp

theorem ofWords_append (source : String) (offset : Nat) (before after : List Word) :
    ∃ front, ofWords source offset (before ++ after) =
        front ++ ofWords source (offset + (Lexeme.written before).length) after ∧
      front.map word = before := by
  induction before generalizing offset with
  | nil => exact ⟨[], rfl, rfl⟩
  | cons first before inductionHypothesis =>
    obtain ⟨front, tokens, read⟩ := inductionHypothesis (offset + first.text.length)
    refine ⟨⟨first.kind, String.ofList first.text, first.number, .ofOffset source offset⟩ :: front,
      ?_, ?_⟩
    · rw [List.cons_append, ofWords, tokens, Lexeme.written_cons, List.length_append, Nat.add_assoc]
      rfl
    · simp [read, word]

end Token

namespace Lexeme

theorem isSome_number_iff {text : List Char} {word : Word} (member : word ∈ words text)
    (within : word.integerDigits ≤ digitLimit) :
    word.number.isSome = true ↔ word.kind = .number ∨ word.kind = .infinity := by
  obtain ⟨before, after, shape⟩ := List.append_of_mem member
  obtain ⟨rest, cuts, -⟩ := words_eq_cons (words_append shape)
  obtain ⟨kind, lexeme⟩ := word
  cases kind with
  | number =>
    obtain ⟨-, numeral, rfl, -⟩ := number?_eq_some_iff.mp ((cut_eq_iff (by simp)).mp cuts)
    simp [number_numeral within]
  | infinity =>
    obtain ⟨-, sign, rfl⟩ := infinity?_eq_some_iff.mp ((cut_eq_iff (by simp)).mp cuts)
    simp [number_infinity sign]
  | comma => simp [Word.number, Piece.value]
  | ellipsis => simp [Word.number, Piece.value]
  | invalid => simp [Word.number, Piece.value]
  | endOfInput => simp [Word.number, Piece.value]

theorem eq_nil_of_invalid {text : List Char} {before after : List Word} {word : Word}
    (shape : words text = before ++ word :: after) (invalid : word.kind = .invalid) :
    after = [] := by
  obtain ⟨rest, cuts, later⟩ := words_eq_cons (words_append shape)
  rw [invalid] at cuts
  obtain rfl := rest_of_cut_invalid cuts
  rw [← later, words_nil]

/-- An invalid word takes all that is left of a text, and no other word is invalid. -/
theorem invalid_word_last {text : List Char} {before after : List Word} {word : Word}
    (shape : words text = before ++ word :: after) (invalid : word.kind = .invalid) :
    after = [] ∧ word.text = text.drop (written before).length ∧
      ∀ earlier ∈ before, earlier.kind ≠ .invalid := by
  obtain rfl := eq_nil_of_invalid shape invalid
  refine ⟨rfl, ?_, ?_⟩
  · rw [← written_words text, shape, written_append, List.drop_left]
    simp [written]
  · intro earlier member isInvalid
    obtain ⟨first, second, rfl⟩ := List.append_of_mem member
    rw [List.append_assoc] at shape
    have ended := eq_nil_of_invalid shape isInvalid
    simp at ended

end Lexeme

namespace Token

variable {source : String}

theorem partition_ofWords (within : Lexeme.IntegersWithin digitLimit source.toList) :
    Partition source (ofWords source 0 (Lexeme.words source.toList)) := by
  have written := Lexeme.written_words source.toList
  refine ⟨?_, ?_, ?_, ?_, ?_, ?_⟩
  · rw [flatMap_lexeme_ofWords, written]
  · intro front token back split
    obtain ⟨before, after, -, rfl, tokens⟩ := exists_words_of_split split
    rw [span_eq_length_written]
    cases after with
    | nil =>
      obtain ⟨rfl, -⟩ := List.cons.inj tokens
      simp [atEnd, Location.ofOffset]
    | cons word later =>
      obtain ⟨rfl, -⟩ := List.cons.inj tokens
      simp [Location.ofOffset]
  · intro front token back split goesOn
    obtain ⟨before, after, shape, -, tokens⟩ := exists_words_of_split split
    cases after with
    | nil =>
      obtain ⟨-, rfl⟩ := List.cons.inj tokens
      contradiction
    | cons word later =>
      obtain ⟨rfl, -⟩ := List.cons.inj tokens
      have nonempty := Lexeme.text_ne_nil_of_mem_words word (by rw [shape]; simp)
      simpa using nonempty
  · obtain ⟨front, tokens, read⟩ := ofWords_append source 0 (Lexeme.words source.toList) []
    rw [List.append_nil, written, Nat.zero_add, String.length_toList] at tokens
    refine ⟨front, tokens, ?_⟩
    intro token member
    have listed : token.word ∈ front.map word := List.mem_map_of_mem member
    rw [read] at listed
    exact Lexeme.kind_ne_end_of_mem_words token.word listed
  · intro front token back split invalid
    obtain ⟨before, after, shape, rfl, tokens⟩ := exists_words_of_split split
    cases after with
    | nil =>
      obtain ⟨rfl, -⟩ := List.cons.inj tokens
      contradiction
    | cons word later =>
      obtain ⟨rfl, rfl⟩ := List.cons.inj tokens
      obtain ⟨rfl, rest, unique⟩ := Lexeme.invalid_word_last shape invalid
      rw [span_eq_length_written]
      refine ⟨by rw [String.toList_ofList, rest], ?_, ?_⟩
      · have total := congrArg List.length written
        rw [shape, Lexeme.written_append, List.length_append, String.length_toList] at total
        rw [ofWords, Nat.zero_add, ← total]
        simp [Lexeme.written]
      · intro other member
        exact unique other.word (List.mem_map_of_mem member)
  · intro token member
    obtain ⟨front, back, split⟩ := List.append_of_mem member
    obtain ⟨before, after, shape, -, tokens⟩ := exists_words_of_split split
    cases after with
    | nil =>
      obtain ⟨rfl, -⟩ := List.cons.inj tokens
      simp [atEnd]
    | cons word later =>
      obtain ⟨rfl, -⟩ := List.cons.inj tokens
      have wordMember : word ∈ Lexeme.words source.toList := by
        rw [shape]
        simp
      exact Lexeme.isSome_number_iff wordMember (within word wordMember)

end Token

/-- Reading gives tokens that the source is cut into, unless an integer literal that it gets to has
more digits than the limit. -/
theorem tokenize_partitions (source : String) :
    (∃ tokens, tokenize source = .ok tokens ∧ Token.Partition source tokens) ∨
      ∃ word ∈ Lexeme.words source.toList, digitLimit < word.integerDigits ∧
        tokenize source = .error (.literalTooLong word.integerDigits) := by
  by_cases within : Lexeme.IntegersWithin digitLimit source.toList
  · exact .inl ⟨_, Token.tokenize_eq within, Token.partition_ofWords within⟩
  · exact .inr (Token.tokenize_error within)

end Progressions
