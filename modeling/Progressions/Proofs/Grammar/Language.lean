import Mathlib.Data.List.Basic
import Progressions.Interpretation
import Progressions.Proofs.Grammar.Acceptance
import Progressions.Proofs.Grammar.Sentence
import Progressions.Proofs.Lexeme.Boundaries
import Progressions.Proofs.Result

/-!
# The language of specifications

Reading cuts words greedily and parsing looks one token ahead, yet together they accept exactly
the sentences, and the specification of a text holds the values of the sentence it is.
-/

set_option autoImplicit false

namespace Progressions

theorem map_word_beforeEnd (source : String) (offset : Nat) {words : List Word}
    (real : ∀ word ∈ words, word.kind ≠ .endOfInput) :
    (beforeEnd (Token.ofWords source offset words)).map Token.word = words := by
  induction words generalizing offset with
  | nil => simp [Token.ofWords, Token.atEnd, beforeEnd]
  | cons word later inductionHypothesis =>
    have step := inductionHypothesis (offset + word.text.length)
      fun other member => real other (List.mem_cons_of_mem word member)
    have first := real word List.mem_cons_self
    rw [beforeEnd] at step
    simp [Token.ofWords, beforeEnd, first, Token.word, step]

theorem value_of_mem_ofWords (source : String) {words : List Word} {token : Token}
    {offset : Nat} (member : token ∈ Token.ofWords source offset words)
    (real : token.kind ≠ .endOfInput) : token.value = token.word.number := by
  induction words generalizing offset with
  | nil =>
    obtain rfl := List.mem_singleton.mp member
    contradiction
  | cons word later inductionHypothesis =>
    rcases List.mem_cons.mp member with rfl | member
    · simp [Token.word]
    · exact inductionHypothesis member

/-- The tokens that are read from a text stand for its words, before the end. -/
structure Reads (source : String) (tokens : List Token) : Prop where
  words : (beforeEnd tokens).map Token.word = Lexeme.words source.toList
  values : ∀ token ∈ beforeEnd tokens, token.value = token.word.number
  source : (Cursor.ofTokens tokens).source = source

theorem tokenize_reads {source : String}
    (within : Lexeme.IntegersWithin digitLimit source.toList) :
    ∃ tokens, tokenize source = .ok tokens ∧ Reads source tokens := by
  refine ⟨_, Token.tokenize_eq within, ?_, ?_, ?_⟩
  · exact map_word_beforeEnd source 0 Lexeme.kind_ne_end_of_mem_words
  · intro token member
    have listed := List.takeWhile_subset _ member
    rw [beforeEnd] at member
    have real := List.mem_takeWhile_imp member
    exact value_of_mem_ofWords source listed (by simpa using real)
  · cases Lexeme.words source.toList <;> rfl

/-! ## Both directions -/

namespace Sentence

theorem filterMap_number (sentence : Sentence)
    (within : ∀ word ∈ sentence.phrase.items, word.integerDigits ≤ digitLimit) :
    sentence.phrase.numbers.filterMap Word.number = sentence.numbers := by
  have read : ∀ numeral : Numeral, ⟨.number, numeral.text⟩ ∈ sentence.phrase.numbers →
      Word.number ⟨.number, numeral.text⟩ = some numeral.value := fun numeral member =>
    Lexeme.number_numeral (within _ (sentence.phrase.numbers_subset member))
  have parts : ∀ continued : Continued,
      continued.part.number = ⟨.number, continued.numeral.text⟩ := by
    intro continued
    cases continued <;> rfl
  have first := read sentence.first List.mem_cons_self
  have further : ∀ continued ∈ sentence.further,
      Word.number continued.part.number = some continued.numeral.value := by
    intro continued member
    rw [parts continued]
    refine read _ (List.mem_cons_of_mem _ ?_)
    exact List.mem_map.mpr ⟨_, List.mem_map_of_mem member, parts continued⟩
  simp only [phrase, Phrase.numbers, numbers, List.map_map, List.filterMap_cons_some first,
    List.filterMap_map]
  exact congrArg _ (List.filterMap_eq_map_iff_forall_eq_some.mpr further)

theorem bind_number (sentence : Sentence)
    (within : ∀ word ∈ sentence.phrase.items, word.integerDigits ≤ digitLimit) :
    sentence.phrase.bound.bind Word.number = sentence.bound := by
  have readable (word : Word) (present : sentence.phrase.bound = some word) :
      word.integerDigits ≤ digitLimit :=
    within word (Phrase.bound_mem present)
  obtain ⟨first, further, tail, enough⟩ := sentence
  cases tail with
  | none => rfl
  | some tail =>
    obtain ⟨separator, limit⟩ := tail
    cases limit with
    | none => rfl
    | some pair =>
      obtain ⟨between, limit⟩ := pair
      cases limit with
      | finite numeral => exact Lexeme.number_numeral (readable _ rfl)
      | infinite sign => exact Lexeme.number_infinity sign

end Sentence

namespace Specification

theorem bound_specification (phrase : Phrase Token) (source : String) :
    (phrase.specification source).bound = phrase.bound.bind (·.value) := by
  obtain ⟨first, further, ending⟩ := phrase
  cases ending with
  | none => rfl
  | some ending =>
    obtain ⟨comma, ellipsis, limit⟩ := ending
    cases limit <;> rfl

theorem ofText_sentence {source : String} {sentence : Sentence}
    (within : Lexeme.IntegersWithin digitLimit source.toList)
    (isText : sentence.text = source.toList) :
    ∃ specification, ofText source = .ok specification ∧
      specification.numbers = sentence.numbers ∧
        specification.hasEllipsis = sentence.tail.isSome ∧
          specification.bound = sentence.bound := by
  obtain ⟨tokens, tokenized, reads⟩ := tokenize_reads within
  have wordsOf := sentence.words_text
  rw [isText] at wordsOf
  obtain ⟨phrase, items, image⟩ := Phrase.exists_of_map (reads.words.trans wordsOf)
  have grammatical : phrase.Grammatical Token.kind := by
    have imageGrammatical := sentence.phrase_grammatical
    rw [← image, Phrase.grammatical_map] at imageGrammatical
    exact imageGrammatical
  have parsed : Specification.ofTokens tokens = .ok (phrase.specification source) :=
    (ofTokens_eq_ok_iff tokens _).mpr ⟨phrase, grammatical, items.symm, by rw [reads.source]⟩
  have readable : ∀ word ∈ sentence.phrase.items, word.integerDigits ≤ digitLimit := by
    rw [← wordsOf]
    exact within
  have values : ∀ token ∈ phrase.items, token.value = token.word.number := by
    rw [items]
    exact reads.values
  refine ⟨phrase.specification source, ?_, ?_, ?_, ?_⟩
  · rw [ofText, tokenized]
    exact mapError_eq_ok_iff.mpr parsed
  · rw [← sentence.filterMap_number readable, ← image, Phrase.numbers_map, List.filterMap_map]
    exact List.filterMap_congr fun token member => values token (phrase.numbers_subset member)
  · have endings := congrArg (·.ending.isSome) image
    simpa [hasEllipsis, Phrase.specification, Phrase.map, Sentence.phrase] using endings
  · rw [← sentence.bind_number readable, ← image, Phrase.bound_map]
    rw [bound_specification]
    cases present : phrase.bound with
    | none => rfl
    | some token => exact values token (Phrase.bound_mem present)

/-- No integer of an accepted text is beyond the digit limit. -/
theorem within_of_ofText {source : String} {specification : Specification}
    (accepted : ofText source = .ok specification) :
    Lexeme.IntegersWithin digitLimit source.toList := by
  by_contra beyond
  obtain ⟨word, -, -, failed⟩ := Token.tokenize_error beyond
  rw [ofText, failed] at accepted
  cases accepted

theorem exists_sentence_of_ofText {source : String} {specification : Specification}
    (within : Lexeme.IntegersWithin digitLimit source.toList)
    (accepted : ofText source = .ok specification) :
    ∃ sentence : Sentence, sentence.text = source.toList := by
  obtain ⟨tokens, tokenized, reads⟩ := tokenize_reads within
  have parsed : ofTokens tokens = .ok specification := by
    rw [ofText, tokenized] at accepted
    exact mapError_eq_ok_iff.mp accepted
  obtain ⟨phrase, grammatical, items, -⟩ := (ofTokens_eq_ok_iff tokens specification).mp parsed
  have image : (phrase.map Token.word).Grammatical Word.kind :=
    (Phrase.grammatical_map Token.word Word.kind phrase).mpr grammatical
  refine Sentence.exists_sentence image ?_
  rw [Phrase.items_map, ← items, reads.words]

/-- A text within the digit limit is accepted exactly when it is a sentence, and its
specification holds the values of the numerals in front of the tail, whether there is a tail, and
the value of its limit. -/
theorem ofText_accepts_sentences {source : String}
    (within : Lexeme.IntegersWithin digitLimit source.toList) :
    ((∃ specification, ofText source = .ok specification) ↔
      ∃ sentence : Sentence, sentence.text = source.toList) ∧
    ∀ (specification : Specification) (sentence : Sentence),
      ofText source = .ok specification → sentence.text = source.toList →
        specification.numbers = sentence.numbers ∧
          specification.hasEllipsis = sentence.tail.isSome ∧
            specification.bound = sentence.bound := by
  refine ⟨⟨?_, ?_⟩, ?_⟩
  · rintro ⟨specification, accepted⟩
    exact exists_sentence_of_ofText within accepted
  · rintro ⟨sentence, isText⟩
    obtain ⟨specification, accepted, -⟩ := ofText_sentence within isText
    exact ⟨specification, accepted⟩
  · intro specification sentence accepted isText
    obtain ⟨found, foundAccepted, parts⟩ := ofText_sentence within isText
    obtain rfl := Except.ok.inj (accepted.symm.trans foundAccepted)
    exact parts

/-- A run with a sign for a separator, a decimal, blanks around commas, and an infinite limit. -/
theorem ofText_accepts_signed_run :
    Lexeme.IntegersWithin digitLimit "7-1 , 2.5,..., +Inf".toList ∧
      ∃ specification, ofText "7-1 , 2.5,..., +Inf" = .ok specification ∧
        specification.numbers = [.int 7, .int (-1), .float (Binary64.ofDecimal false 25 (-1))] ∧
          specification.hasEllipsis = true ∧
            specification.bound = some (.float (.infinite false)) := by
  have within : Lexeme.IntegersWithin digitLimit "7-1 , 2.5,..., +Inf".toList := by decide +kernel
  let comma : Separator := ⟨[], [], by simp, by simp⟩
  let sentence : Sentence :=
    { first := ⟨.absent, ⟨['7'], List.cons_ne_nil _ _, List.all_eq_true.mp rfl⟩, none⟩
      further := [
        .signed ⟨.minus, ⟨['1'], List.cons_ne_nil _ _, List.all_eq_true.mp rfl⟩, none⟩ nofun,
        .separated ⟨[' '], [' '], List.all_eq_true.mp rfl, List.all_eq_true.mp rfl⟩
          ⟨.absent, ⟨['2'], List.cons_ne_nil _ _, List.all_eq_true.mp rfl⟩,
            some ⟨['5'], List.cons_ne_nil _ _, List.all_eq_true.mp rfl⟩⟩]
      tail := some ⟨comma, some (⟨[], [' '], by simp, List.all_eq_true.mp rfl⟩, .infinite .plus)⟩
      enough := fun _ => Nat.le_refl 3 }
  have isText : sentence.text = "7-1 , 2.5,..., +Inf".toList := by decide +kernel
  obtain ⟨accepts, values⟩ := ofText_accepts_sentences within
  obtain ⟨specification, accepted⟩ := accepts.mpr ⟨sentence, isText⟩
  exact ⟨within, specification, accepted, values specification sentence accepted isText⟩

end Specification

end Progressions
