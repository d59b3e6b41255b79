import Progressions.Proofs.Grammar.Phrase
import Progressions.Proofs.Lexeme.Words

/-!
# Sentences

The language of specifications, character by character:

    sentence = numeral (separator numeral | signed numeral)* tail?
    tail     = separator "..." (separator (numeral | infinity))?

with at least three numerals before a tail.  Blanks stand only around a comma, and a numeral
without a separator in front of it carries a sign.

`words_text` and `exists_sentence` say that the sentences are exactly the texts whose words are a
grammatical phrase.
-/

set_option autoImplicit false

namespace Progressions

/-- A numeral that continues a sentence. -/
inductive Continued where
  | separated (separator : Separator) (numeral : Numeral)
  | signed (numeral : Numeral) (isSigned : numeral.sign ≠ .absent)

inductive Limit where
  | finite (numeral : Numeral)
  | infinite (sign : Sign)

/-- The end of a sentence that goes on past its numerals. -/
structure Tail where
  separator : Separator
  limit : Option (Separator × Limit)

structure Sentence where
  first : Numeral
  further : List Continued
  tail : Option Tail
  enough : tail.isSome → 3 ≤ further.length + 1

namespace Continued

def numeral : Continued → Numeral
  | .separated _ numeral => numeral
  | .signed numeral _ => numeral

def text : Continued → List Char
  | .separated separator numeral => separator.text ++ numeral.text
  | .signed numeral _ => numeral.text

def part : Continued → Further Word
  | .separated separator numeral =>
    ⟨some ⟨.comma, separator.text⟩, ⟨.number, numeral.text⟩⟩
  | .signed numeral _ => ⟨none, ⟨.number, numeral.text⟩⟩

end Continued

namespace Limit

def text : Limit → List Char
  | .finite numeral => numeral.text
  | .infinite sign => infinityText sign

def value : Limit → Number
  | .finite numeral => numeral.value
  | .infinite sign => .float (.infinite (sign == .minus))

def word : Limit → Word
  | .finite numeral => ⟨.number, numeral.text⟩
  | .infinite sign => ⟨.infinity, infinityText sign⟩

end Limit

namespace Tail

def limitText (tail : Tail) : List Char :=
  match tail.limit with
  | none => []
  | some (separator, limit) => separator.text ++ limit.text

def text (tail : Tail) : List Char := tail.separator.text ++ ellipsisText ++ tail.limitText

def ending (tail : Tail) : Ending Word :=
  ⟨⟨.comma, tail.separator.text⟩, ⟨.ellipsis, ellipsisText⟩,
    tail.limit.map fun (separator, limit) => (⟨.comma, separator.text⟩, limit.word)⟩

end Tail

namespace Sentence

def tailText (sentence : Sentence) : List Char :=
  match sentence.tail with
  | none => []
  | some tail => tail.text

def text (sentence : Sentence) : List Char :=
  sentence.first.text ++ (sentence.further.flatMap Continued.text ++ sentence.tailText)

/-- The values of the numerals before the tail, in the order of the text. -/
def numbers (sentence : Sentence) : List Number :=
  sentence.first.value :: sentence.further.map (·.numeral.value)

def bound (sentence : Sentence) : Option Number := do
  let tail ← sentence.tail
  let (_, limit) ← tail.limit
  return limit.value

def phrase (sentence : Sentence) : Phrase Word :=
  ⟨⟨.number, sentence.first.text⟩, sentence.further.map Continued.part,
    sentence.tail.map Tail.ending⟩

theorem phrase_grammatical (sentence : Sentence) : sentence.phrase.Grammatical Word.kind := by
  obtain ⟨first, further, tail, enough⟩ := sentence
  refine ⟨rfl, ?_, ?_, ?_⟩
  · intro part member
    obtain ⟨continued, -, rfl⟩ := List.mem_map.mp member
    cases continued with
    | separated separator numeral =>
      refine ⟨fun comma present => ?_, rfl⟩
      cases present
      rfl
    | signed numeral isSigned => exact ⟨fun comma absent => by contradiction, rfl⟩
  · intro ending present
    obtain ⟨tail, -, rfl⟩ := Option.map_eq_some_iff.mp present
    refine ⟨rfl, rfl, ?_⟩
    intro comma bound limited
    obtain ⟨⟨separator, limit⟩, -, pair⟩ := Option.map_eq_some_iff.mp limited
    cases pair
    cases limit with
    | finite numeral => exact ⟨rfl, List.mem_cons_self⟩
    | infinite sign => exact ⟨rfl, List.mem_cons_of_mem _ List.mem_cons_self⟩
  · intro hasEnding
    have counted := enough (by simpa [phrase] using hasEnding)
    simpa [phrase, Phrase.numbers, minimumTerms] using counted

end Sentence

namespace Lexeme

/-! ## Where the words of a sentence end -/

/-- The text lengthens no numeral in front of it. -/
def StopsNumeral (text : List Char) : Prop :=
  Stops (fun character => character.isDigit || character == '.') text

theorem stopsNumeral_of_opensSeparator {first : Char} (opens : opensSeparator first = true)
    (rest : List Char) : StopsNumeral (first :: rest) := by
  refine stops_cons rest ?_
  have noPoint : first ≠ '.' := ne_of_class opens rfl
  simp only [opensSeparator, Bool.or_eq_true, beq_iff_eq] at opens
  rcases opens with rfl | blank
  · decide
  · have noDigit : first.isDigit = false := by
      by_contra digit
      rw [isBlank_of_isDigit (by simpa using digit)] at blank
      contradiction
    simp [noDigit, noPoint]

theorem stopsNumeral_separator (separator : Separator) (rest : List Char) :
    StopsNumeral (separator.text ++ rest) := by
  obtain ⟨first, others, shape, opens⟩ := exists_opensSeparator_cons separator
  rw [shape]
  exact stopsNumeral_of_opensSeparator opens _

theorem stopsNumeral_signed {numeral : Numeral} (isSigned : numeral.sign ≠ .absent)
    (rest : List Char) : StopsNumeral (numeral.text ++ rest) := by
  obtain ⟨sign, whole, fraction⟩ := numeral
  cases sign with
  | absent => contradiction
  | plus => exact stops_cons _ (by decide)
  | minus => exact stops_cons _ (by decide)

theorem stopsNumeral_further (further : List Continued) {rest : List Char}
    (stops : StopsNumeral rest) : StopsNumeral (further.flatMap Continued.text ++ rest) := by
  cases further with
  | nil => exact stops
  | cons continued others =>
    cases continued with
    | separated separator numeral =>
      simp only [List.flatMap_cons, Continued.text, List.append_assoc]
      exact stopsNumeral_separator separator _
    | signed numeral isSigned =>
      simp only [List.flatMap_cons, Continued.text, List.append_assoc]
      exact stopsNumeral_signed isSigned _

theorem stopsNumeral_tail (sentence : Sentence) : StopsNumeral sentence.tailText := by
  unfold Sentence.tailText
  split
  · exact stops_nil _
  · next tail _ =>
    rw [Tail.text, List.append_assoc]
    exact stopsNumeral_separator tail.separator _

/-! ## The words of a sentence -/

theorem words_further (further : List Continued) {rest : List Char} (stops : StopsNumeral rest) :
    words (further.flatMap Continued.text ++ rest) =
      (further.map Continued.part).flatMap Further.items ++ words rest := by
  induction further with
  | nil => rfl
  | cons continued others inductionHypothesis =>
    have laterStops := stopsNumeral_further others stops
    cases continued with
    | separated separator numeral =>
      have blankStops := (stops_opensSeparator_numeral numeral
        (others.flatMap Continued.text ++ rest)).isBlank
      simp only [List.flatMap_cons, Continued.text, List.append_assoc, List.map_cons,
        Continued.part, Further.items, Option.toList_some]
      rw [words_separator separator blankStops, words_numeral (closes_of_stops numeral laterStops),
        inductionHypothesis]
      rfl
    | signed numeral isSigned =>
      simp only [List.flatMap_cons, Continued.text, List.append_assoc, List.map_cons,
        Continued.part, Further.items, Option.toList_none]
      rw [words_numeral (closes_of_stops numeral laterStops), inductionHypothesis]
      rfl

theorem words_limit (limit : Limit) : words limit.text = [limit.word] := by
  rw [← List.append_nil limit.text]
  cases limit with
  | finite numeral =>
    simp only [Limit.text, Limit.word]
    rw [words_numeral (closes_of_stops numeral (stops_nil _)), words_nil]
  | infinite sign =>
    simp only [Limit.text, Limit.word]
    rw [words_infinity, words_nil]

theorem stops_isBlank_limit (limit : Limit) : Stops Text.isBlank limit.text := by
  rw [← List.append_nil limit.text]
  cases limit with
  | finite numeral => exact (stops_opensSeparator_numeral numeral []).isBlank
  | infinite sign => exact (stops_opensSeparator_infinity sign []).isBlank

theorem words_tail (tail : Tail) : words tail.text = tail.ending.items := by
  have stops := (stops_opensSeparator_ellipsis tail.limitText).isBlank
  rw [Tail.text, List.append_assoc, words_separator tail.separator stops, words_ellipsis]
  obtain ⟨separator, limit⟩ := tail
  cases limit with
  | none =>
    simp only [Tail.limitText, words_nil]
    rfl
  | some pair =>
    simp only [Tail.limitText]
    rw [words_separator pair.1 (stops_isBlank_limit pair.2), words_limit]
    rfl

end Lexeme

/-- The words of a sentence are those it is made of. -/
theorem Sentence.words_text (sentence : Sentence) :
    Lexeme.words sentence.text = sentence.phrase.items := by
  have tailStops := Lexeme.stopsNumeral_tail sentence
  have laterStops := Lexeme.stopsNumeral_further sentence.further tailStops
  rw [text, Lexeme.words_numeral (Lexeme.closes_of_stops sentence.first laterStops),
    Lexeme.words_further sentence.further tailStops]
  have tailWords : Lexeme.words sentence.tailText = sentence.phrase.endingItems := by
    obtain ⟨first, further, tail, enough⟩ := sentence
    cases tail with
    | none => exact Lexeme.words_nil
    | some tail => exact Lexeme.words_tail tail
  rw [tailWords]
  rfl

/-! ## Sentences of words -/

namespace Lexeme

section Heads

variable {text : List Char} {word : Word} {later : List Word} (shape : words text = word :: later)

include shape

theorem numeral_of_words (isNumber : word.kind = .number) :
    ∃ (numeral : Numeral) (rest : List Char), text = numeral.text ++ rest ∧
      Closes numeral rest ∧ words rest = later := by
  obtain ⟨rest, cuts, laterWords⟩ := words_eq_cons shape
  rw [isNumber] at cuts
  obtain ⟨split, numeral, lexeme, closes⟩ :=
    number?_eq_some_iff.mp ((cut_eq_iff (by decide)).mp cuts)
  exact ⟨numeral, rest, by rw [lexeme, split], closes, laterWords⟩

theorem separator_of_words (isComma : word.kind = .comma) :
    ∃ (separator : Separator) (rest : List Char), text = separator.text ++ rest ∧
      words rest = later := by
  obtain ⟨rest, cuts, laterWords⟩ := words_eq_cons shape
  rw [isComma] at cuts
  obtain ⟨split, separator, lexeme, -⟩ :=
    separator?_eq_some_iff.mp ((cut_eq_iff (by decide)).mp cuts)
  exact ⟨separator, rest, by rw [lexeme, split], laterWords⟩

theorem ellipsis_of_words (isEllipsis : word.kind = .ellipsis) :
    ∃ rest, text = ellipsisText ++ rest ∧ words rest = later := by
  obtain ⟨rest, cuts, laterWords⟩ := words_eq_cons shape
  rw [isEllipsis] at cuts
  obtain ⟨split, lexeme⟩ := ellipsis?_eq_some_iff.mp ((cut_eq_iff (by decide)).mp cuts)
  exact ⟨rest, by rw [← lexeme, split], laterWords⟩

theorem limit_of_words (isBound : word.kind ∈ boundKinds) :
    ∃ (limit : Limit) (rest : List Char), text = limit.text ++ rest ∧ words rest = later := by
  simp only [boundKinds, List.mem_cons, List.not_mem_nil, or_false] at isBound
  rcases isBound with isNumber | isInfinity
  · obtain ⟨numeral, rest, split, -, laterWords⟩ := numeral_of_words shape isNumber
    exact ⟨.finite numeral, rest, split, laterWords⟩
  · obtain ⟨rest, cuts, laterWords⟩ := words_eq_cons shape
    rw [isInfinity] at cuts
    obtain ⟨split, sign, lexeme⟩ :=
      infinity?_eq_some_iff.mp ((cut_eq_iff (by decide)).mp cuts)
    exact ⟨.infinite sign, rest, by rw [Limit.text, lexeme, split], laterWords⟩

end Heads

/-- A numeral that no digit may start carries a sign. -/
theorem signed_of_stops {numeral : Numeral} {rest : List Char}
    (stops : Stops Char.isDigit (numeral.text ++ rest)) : numeral.sign ≠ .absent := by
  obtain ⟨sign, whole, fraction⟩ := numeral
  rintro rfl
  obtain ⟨first, others, shape, digit, -⟩ := exists_digit_cons whole
  simp only [Numeral.text, Sign.text, shape, List.nil_append, List.cons_append] at stops
  have noDigit := stops first rfl
  rw [digit] at noDigit
  contradiction

/-- A run of words behind a numeral is the run of a sentence: the text cannot go on with a digit,
so a numeral without a separator is signed. -/
theorem exists_continued {further : List (Further Word)} {later : List Word}
    (grammatical : ∀ part ∈ further, part.Grammatical Word.kind) {text : List Char}
    (stops : Stops Char.isDigit text)
    (shape : words text = further.flatMap Further.items ++ later) :
    ∃ (continued : List Continued) (rest : List Char),
      text = continued.flatMap Continued.text ++ rest ∧ words rest = later ∧
        continued.length = further.length := by
  induction further generalizing text with
  | nil => exact ⟨[], text, rfl, shape, rfl⟩
  | cons part others inductionHypothesis =>
    have others_grammatical : ∀ other ∈ others, other.Grammatical Word.kind :=
      fun other member => grammatical other (List.mem_cons_of_mem part member)
    have isNumber := (grammatical part List.mem_cons_self).number
    have isComma := (grammatical part List.mem_cons_self).comma
    obtain ⟨comma, number⟩ := part
    cases comma with
    | none =>
      simp only [List.flatMap_cons, Further.items, Option.toList_none, List.nil_append,
        List.cons_append] at shape
      obtain ⟨numeral, after, rfl, closes, afterWords⟩ := numeral_of_words shape isNumber
      obtain ⟨continued, rest, rfl, restWords, length⟩ :=
        inductionHypothesis others_grammatical closes.stops afterWords
      refine ⟨.signed numeral (signed_of_stops stops) :: continued, rest, ?_, restWords, ?_⟩
      · simp [Continued.text]
      · simp [length]
    | some comma =>
      simp only [List.flatMap_cons, Further.items, Option.toList_some, List.nil_append,
        List.cons_append] at shape
      obtain ⟨separator, middle, rfl, middleWords⟩ := separator_of_words shape (isComma comma rfl)
      obtain ⟨numeral, after, rfl, closes, afterWords⟩ := numeral_of_words middleWords isNumber
      obtain ⟨continued, rest, rfl, restWords, length⟩ :=
        inductionHypothesis others_grammatical closes.stops afterWords
      refine ⟨.separated separator numeral :: continued, rest, ?_, restWords, ?_⟩
      · simp [Continued.text]
      · simp [length]

theorem exists_tail {ending : Ending Word} (grammatical : ending.Grammatical Word.kind)
    {text : List Char} (shape : words text = ending.items) : ∃ tail : Tail, text = tail.text := by
  obtain ⟨comma, ellipsis, limit⟩ := ending
  obtain ⟨separator, middle, rfl, middleWords⟩ := separator_of_words shape grammatical.comma
  obtain ⟨rest, rfl, restWords⟩ := ellipsis_of_words middleWords grammatical.ellipsis
  cases limit with
  | none =>
    obtain rfl := words_eq_nil restWords
    exact ⟨⟨separator, none⟩, by simp [Tail.text, Tail.limitText]⟩
  | some pair =>
    obtain ⟨isComma, isBound⟩ := grammatical.limit pair.1 pair.2 rfl
    obtain ⟨between, last, rfl, lastWords⟩ := separator_of_words restWords isComma
    obtain ⟨limit, nothing, rfl, nothingWords⟩ := limit_of_words lastWords isBound
    obtain rfl := words_eq_nil nothingWords
    exact ⟨⟨separator, some (between, limit)⟩, by simp [Tail.text, Tail.limitText]⟩

end Lexeme

/-- A text whose words are a grammatical phrase is a sentence. -/
theorem Sentence.exists_sentence {text : List Char} {phrase : Phrase Word}
    (grammatical : phrase.Grammatical Word.kind) (shape : Lexeme.words text = phrase.items) :
    ∃ sentence : Sentence, sentence.text = text := by
  obtain ⟨first, further, ending⟩ := phrase
  rw [Phrase.items, List.cons_append] at shape
  obtain ⟨numeral, after, rfl, closes, afterWords⟩ :=
    Lexeme.numeral_of_words shape grammatical.first
  obtain ⟨continued, rest, rfl, restWords, length⟩ :=
    Lexeme.exists_continued grammatical.further closes.stops afterWords
  cases ending with
  | none =>
    obtain rfl := Lexeme.words_eq_nil restWords
    exact ⟨⟨numeral, continued, none, by simp⟩, by simp [Sentence.text, Sentence.tailText]⟩
  | some ending =>
    obtain ⟨tail, rfl⟩ := Lexeme.exists_tail (grammatical.ending ending rfl) restWords
    have counted : minimumTerms ≤ further.length + 1 := by
      simpa [Phrase.numbers] using grammatical.enough rfl
    exact ⟨⟨numeral, continued, some tail, fun _ => by rw [length]; exact counted⟩,
      by simp [Sentence.text, Sentence.tailText]⟩

end Progressions
