import Progressions.Proofs.Grammar.Literals
import Progressions.Proofs.Number.Printing

/-!
# Sentences of printed integers

Integers are written behind each other with commas between them, an ellipsis and perhaps a limit at
the end.  The text is a sentence, whose values are the integers, and no integer in it has more
digits than those that were written.
-/

set_option autoImplicit false

namespace Progressions

/-! ## The digits of a sentence -/

def Limit.numeral? : Limit → Option Numeral
  | .finite numeral => some numeral
  | .infinite _ => none

namespace Sentence

def limit? (sentence : Sentence) : Option Limit := do
  let tail ← sentence.tail
  let (_, limit) ← tail.limit
  return limit

def numerals (sentence : Sentence) : List Numeral :=
  sentence.first :: (sentence.further.map (·.numeral) ++
    (sentence.limit?.bind Limit.numeral?).toList)

theorem exists_numeral_of_mem_further {sentence : Sentence} {word : Word}
    (member : word ∈ sentence.phrase.further.flatMap Further.items)
    (isNumber : word.kind = .number) :
    ∃ numeral ∈ sentence.numerals, word = ⟨.number, numeral.text⟩ := by
  obtain ⟨part, present, inPart⟩ := List.mem_flatMap.mp member
  obtain ⟨continued, listed, rfl⟩ := List.mem_map.mp present
  refine ⟨continued.numeral, ?_, ?_⟩
  · refine List.mem_cons_of_mem _ (List.mem_append_left _ ?_)
    exact List.mem_map_of_mem listed
  · cases continued with
    | separated separator numeral =>
      rcases List.mem_cons.mp inPart with rfl | inPart
      · cases isNumber
      · exact List.mem_singleton.mp inPart
    | signed numeral isSigned => exact List.mem_singleton.mp inPart

theorem exists_numeral_of_mem_ending {sentence : Sentence} {word : Word}
    (member : word ∈ sentence.phrase.endingItems) (isNumber : word.kind = .number) :
    ∃ numeral ∈ sentence.numerals, word = ⟨.number, numeral.text⟩ := by
  obtain ⟨first, further, tail, enough⟩ := sentence
  cases tail with
  | none => cases member
  | some tail =>
    obtain ⟨separator, limit⟩ := tail
    -- Of the comma, the ellipsis, the second comma and the limit only the last can be a number.
    rcases List.mem_cons.mp member with rfl | member
    · cases isNumber
    rcases List.mem_cons.mp member with rfl | member
    · cases isNumber
    cases limit with
    | none => cases member
    | some pair =>
      obtain ⟨between, limit⟩ := pair
      rcases List.mem_cons.mp member with rfl | member
      · cases isNumber
      obtain rfl := List.mem_singleton.mp member
      cases limit with
      | finite numeral => exact ⟨numeral, by simp [numerals, limit?, Limit.numeral?], rfl⟩
      | infinite sign => cases isNumber

theorem exists_numeral_of_mem_items {sentence : Sentence} {word : Word}
    (member : word ∈ sentence.phrase.items) (isNumber : word.kind = .number) :
    ∃ numeral ∈ sentence.numerals, word = ⟨.number, numeral.text⟩ := by
  rw [Phrase.items, List.cons_append, List.mem_cons, List.mem_append] at member
  rcases member with rfl | inFurther | inEnding
  · exact ⟨sentence.first, List.mem_cons_self, rfl⟩
  · exact exists_numeral_of_mem_further inFurther isNumber
  · exact exists_numeral_of_mem_ending inEnding isNumber

theorem within_of_short {sentence : Sentence} {limit : Nat} {text : List Char}
    (short : ∀ numeral ∈ sentence.numerals, numeral.Short limit) (isText : sentence.text = text) :
    Lexeme.IntegersWithin limit text := by
  rw [Lexeme.IntegersWithin, ← isText, sentence.words_text]
  intro word member
  by_cases isNumber : word.kind = .number
  · obtain ⟨numeral, listed, rfl⟩ := exists_numeral_of_mem_items member isNumber
    rw [Lexeme.integerDigits_numeral]
    split
    · next integer => exact short numeral listed integer
    · exact Nat.zero_le limit
  · simp [Word.integerDigits, isNumber]

end Sentence

/-! ## Printed sentences -/

/-- A comma without blanks. -/
def Separator.bare : Separator := ⟨[], [], by simp, by simp⟩

namespace Sentence

variable {first : Int} {others : List Int} {limit : Option Limit}
  {enough : 3 ≤ (first :: others).length}

/-- Integers with an ellipsis behind them and perhaps a limit. -/
def ofInts (first : Int) (others : List Int) (limit : Option Limit)
    (enough : 3 ≤ (first :: others).length) : Sentence where
  first := .ofInt first
  further := others.map fun value => .separated .bare (.ofInt value)
  tail := some ⟨.bare, limit.map (.bare, ·)⟩
  enough _ := by simpa using enough

theorem numbers_ofInts :
    (ofInts first others limit enough).numbers = (first :: others).map .int := by
  simp [numbers, ofInts, Continued.numeral, Numeral.value_ofInt, Function.comp_def]

theorem bound_ofInts : (ofInts first others limit enough).bound = limit.map Limit.value := by
  cases limit <;> rfl

theorem numerals_ofInts :
    (ofInts first others limit enough).numerals =
      (first :: others).map .ofInt ++ (limit.bind Limit.numeral?).toList := by
  cases limit <;> simp [numerals, ofInts, Continued.numeral, limit?, Function.comp_def]

theorem intercalate_cons (separator text : List Char) (texts : List (List Char)) :
    separator.intercalate (text :: texts) = text ++ texts.flatMap (separator ++ ·) := by
  induction texts generalizing text with
  | nil => simp
  | cons next texts inductionHypothesis =>
    rw [List.intercalate_cons_cons, inductionHypothesis]
    simp

/-- The parts of the sentence with commas between them. -/
theorem text_ofInts :
    (ofInts first others limit enough).text =
      [','].intercalate ((first :: others).map (fun value => (toString value).toList) ++
        ellipsisText :: limit.toList.map Limit.text) := by
  rw [List.map_cons, List.cons_append, intercalate_cons]
  cases limit <;>
    simp [text, ofInts, tailText, Tail.text, Tail.limitText, Continued.text, Separator.text,
      Separator.bare, Numeral.text_ofInt, List.flatMap_map]

end Sentence

end Progressions
