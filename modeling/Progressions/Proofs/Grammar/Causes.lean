import Progressions.Proofs.Grammar.Operations
import Progressions.Proofs.Grammar.Rejection

/-!
# Causes of rejections

Why a text is rejected can be read off its characters.  A separator, or anything else that is no
numeral, is a fault at the front.  Behind the longest run of numerals at the front, an ellipsis is
a fault when the run is too short for it.  Whatever else is wrong is extraneous.

`Sentence.Leads` says what the longest run is without naming a reader.  `exists_leads` finds it in
the words of the text: a longer one would cut the text behind these words to a word that continues
them, and no cut does that.
-/

set_option autoImplicit false

namespace Progressions

/-! ## Runs of items -/

/-- Items of these kinds do not continue a run of numbers. -/
def EndsRun (kinds : List TokenKind) : Prop :=
  ¬ [.number] <+: kinds ∧ ¬ [.comma, .number] <+: kinds

theorem EndsRun.of_isPrefix {kinds others : List TokenKind} (ends : EndsRun others)
    (isFront : kinds <+: others) : EndsRun kinds :=
  ⟨fun number => ends.1 (number.trans isFront), fun separated => ends.2 (separated.trans isFront)⟩

theorem endsRun_of_ellipsis {kinds : List TokenKind} (ellipsis : [.comma, .ellipsis] <+: kinds) :
    EndsRun kinds := by
  obtain ⟨others, rfl⟩ := ellipsis
  constructor
  · simp
  · simp

section Runs

variable {Item : Type} {kind : Item → TokenKind}

/-- A run that items end behind is the whole of any run it starts. -/
theorem further_unique {further others : List (Further Item)} {rest : List Item}
    (grammatical : ∀ part ∈ further, part.Grammatical kind)
    (othersGrammatical : ∀ part ∈ others, part.Grammatical kind)
    (ends : EndsRun (rest.map kind))
    (same : further.flatMap Further.items ++ rest = others.flatMap Further.items) :
    further = others ∧ rest = [] := by
  induction further generalizing others with
  | nil =>
    cases others with
    | nil => exact ⟨rfl, same⟩
    | cons other later =>
      have isNumber := (othersGrammatical other List.mem_cons_self).number
      have isComma := (othersGrammatical other List.mem_cons_self).comma
      obtain ⟨comma, number⟩ := other
      have shape : rest = Further.items ⟨comma, number⟩ ++ later.flatMap Further.items := same
      subst shape
      cases comma with
      | none => exact absurd (by simp [Further.items, isNumber]) ends.1
      | some comma => exact absurd (by simp [Further.items, isNumber, isComma comma rfl]) ends.2
  | cons part later inductionHypothesis =>
    have isNumber := (grammatical part List.mem_cons_self).number
    have isComma := (grammatical part List.mem_cons_self).comma
    cases others with
    | nil => simp [Further.items] at same
    | cons other behind =>
      have otherNumber := (othersGrammatical other List.mem_cons_self).number
      have otherComma := (othersGrammatical other List.mem_cons_self).comma
      have step : later.flatMap Further.items ++ rest = behind.flatMap Further.items →
          later = behind ∧ rest = [] :=
        inductionHypothesis
          (fun next member => grammatical next (List.mem_cons_of_mem part member))
          (fun next member => othersGrammatical next (List.mem_cons_of_mem other member))
      obtain ⟨comma, number⟩ := part
      obtain ⟨before, found⟩ := other
      cases comma with
      | none =>
        cases before with
        | none =>
          obtain ⟨rfl, behindSame⟩ := List.cons.inj same
          obtain ⟨rfl, rfl⟩ := step behindSame
          exact ⟨rfl, rfl⟩
        | some before =>
          obtain ⟨rfl, -⟩ := List.cons.inj same
          rw [otherComma number rfl] at isNumber
          contradiction
      | some comma =>
        cases before with
        | none =>
          obtain ⟨rfl, -⟩ := List.cons.inj same
          rw [isComma comma rfl] at otherNumber
          contradiction
        | some before =>
          obtain ⟨rfl, numberSame⟩ := List.cons.inj same
          obtain ⟨rfl, behindSame⟩ := List.cons.inj numberSame
          obtain ⟨rfl, rfl⟩ := step behindSame
          exact ⟨rfl, rfl⟩

theorem Phrase.items_of_plain {phrase : Phrase Item} (plain : phrase.ending = none) :
    phrase.items = phrase.first :: phrase.further.flatMap Further.items := by
  simp [items, endingItems, plain]

theorem Phrase.length_numbers (phrase : Phrase Item) :
    phrase.numbers.length = phrase.further.length + 1 := by
  simp [numbers]

theorem Phrase.run_unique {run other : Phrase Item} {rest : List Item}
    (grammatical : run.Grammatical kind) (otherGrammatical : other.Grammatical kind)
    (plain : run.ending = none) (otherPlain : other.ending = none)
    (ends : EndsRun (rest.map kind)) (same : run.items ++ rest = other.items) :
    run.numbers.length = other.numbers.length ∧ rest = [] := by
  rw [items_of_plain plain, items_of_plain otherPlain] at same
  obtain ⟨-, behind⟩ := List.cons.inj same
  obtain ⟨further, nothing⟩ :=
    further_unique grammatical.further otherGrammatical.further ends behind
  rw [length_numbers, length_numbers, further]
  exact ⟨rfl, nothing⟩

end Runs

/-! ## What a text starts with -/

namespace Lexeme

variable {text : List Char}

theorem endsRun_of_isPrefix {front : List Char} (ends : EndsRun ((words text).map Word.kind))
    (isFront : front <+: text) : EndsRun ((words front).map Word.kind) :=
  ⟨fun number => ends.1 (starts_words_of_isPrefix number (by simp) isFront),
    fun separated => ends.2 (separated_words_of_isPrefix separated (by simp) isFront)⟩

def StartsWithSeparator (text : List Char) : Prop :=
  ∃ separator : Separator, separator.text <+: text

def StartsWithNumeral (text : List Char) : Prop := ∃ numeral : Numeral, numeral.text <+: text

def StartsWithSeparatedNumeral (text : List Char) : Prop :=
  ∃ (separator : Separator) (numeral : Numeral), separator.text ++ numeral.text <+: text

theorem words_separator_only (separator : Separator) :
    words separator.text = [⟨.comma, separator.text⟩] := by
  have split := words_separator separator (stops_nil Text.isBlank)
  rwa [List.append_nil, words_nil] at split

theorem words_numeral_only (numeral : Numeral) :
    words numeral.text = [⟨.number, numeral.text⟩] := by
  have split := words_numeral (closes_of_stops numeral (stops_nil _))
  rwa [List.append_nil, words_nil] at split

theorem startsWithSeparator_iff :
    StartsWithSeparator text ↔ [.comma] <+: (words text).map Word.kind := by
  constructor
  · rintro ⟨separator, isFront⟩
    exact starts_words_of_isPrefix (by simp [words_separator_only]) (by simp) isFront
  · intro starts
    obtain ⟨word, later, shape, isComma⟩ := prefix_map_iff.mp starts
    obtain ⟨separator, rest, rfl, -⟩ := separator_of_words shape isComma
    exact ⟨separator, List.prefix_append _ _⟩

theorem startsWithNumeral_iff :
    StartsWithNumeral text ↔ [.number] <+: (words text).map Word.kind := by
  constructor
  · rintro ⟨numeral, isFront⟩
    exact starts_words_of_isPrefix (by simp [words_numeral_only]) (by simp) isFront
  · intro starts
    obtain ⟨word, later, shape, isNumber⟩ := prefix_map_iff.mp starts
    obtain ⟨numeral, rest, rfl, -⟩ := numeral_of_words shape isNumber
    exact ⟨numeral, List.prefix_append _ _⟩

theorem words_separated_numeral (separator : Separator) (numeral : Numeral) :
    words (separator.text ++ numeral.text) =
      [⟨.comma, separator.text⟩, ⟨.number, numeral.text⟩] := by
  have stops := (stops_opensSeparator_numeral numeral []).isBlank
  rw [List.append_nil] at stops
  rw [words_separator separator stops, words_numeral_only]

theorem words_separated_ellipsis (separator : Separator) (rest : List Char) :
    words (separator.text ++ (ellipsisText ++ rest)) =
      ⟨.comma, separator.text⟩ :: ⟨.ellipsis, ellipsisText⟩ :: words rest := by
  rw [words_separator separator (stops_opensSeparator_ellipsis rest).isBlank, words_ellipsis]

theorem startsWithSeparatedNumeral_iff :
    StartsWithSeparatedNumeral text ↔ [.comma, .number] <+: (words text).map Word.kind := by
  constructor
  · rintro ⟨separator, numeral, isFront⟩
    exact separated_words_of_isPrefix (by simp [words_separated_numeral]) (by simp) isFront
  · intro starts
    obtain ⟨comma, number, later, shape, isComma, isNumber⟩ := pair_prefix_map_iff.mp starts
    obtain ⟨separator, rest, rfl, restWords⟩ := separator_of_words shape isComma
    obtain ⟨numeral, behind, rfl, -⟩ := numeral_of_words restWords isNumber
    exact ⟨separator, numeral, (List.prefix_append_right_inj _).mpr (List.prefix_append _ _)⟩

theorem exists_separated_ellipsis (starts : [.comma, .ellipsis] <+: (words text).map Word.kind) :
    ∃ separator : Separator, separator.text ++ ellipsisText <+: text := by
  obtain ⟨comma, ellipsis, later, shape, isComma, isEllipsis⟩ := pair_prefix_map_iff.mp starts
  obtain ⟨separator, rest, rfl, restWords⟩ := separator_of_words shape isComma
  obtain ⟨behind, rfl, -⟩ := ellipsis_of_words restWords isEllipsis
  exact ⟨separator, (List.prefix_append_right_inj _).mpr (List.prefix_append _ _)⟩

end Lexeme

/-! ## The longest run at the front -/

namespace Sentence

/-- No run of numerals at the front of the text is longer.  Its text and its count are determined by
this (`Leads.unique`). -/
structure Leads (run : Sentence) (text : List Char) : Prop where
  plain : run.tail = none
  isFront : run.text <+: text
  longest : ∀ other : Sentence, other.tail = none → other.text <+: text →
    other.text.length ≤ run.text.length

theorem length_numbers_phrase (sentence : Sentence) :
    sentence.phrase.numbers.length = sentence.numbers.length := by
  simp [phrase, Phrase.numbers, numbers]

theorem Leads.startsWithNumeral {run : Sentence} {text : List Char} (leads : run.Leads text) :
    Lexeme.StartsWithNumeral text :=
  ⟨run.first, (List.prefix_append _ _).trans leads.isFront⟩

theorem ending_of_plain {run : Sentence} (plain : run.tail = none) : run.phrase.ending = none := by
  simp [phrase, plain]

theorem Leads.unique {run other : Sentence} {text : List Char} (leads : run.Leads text)
    (otherLeads : other.Leads text) :
    other.text = run.text ∧ other.numbers.length = run.numbers.length := by
  have sameText : other.text = run.text := by
    have front := List.prefix_of_prefix_length_le otherLeads.isFront leads.isFront
      (leads.longest other otherLeads.plain otherLeads.isFront)
    exact front.eq_of_length_le (otherLeads.longest run leads.plain leads.isFront)
  have sameWords : other.phrase.items ++ [] = run.phrase.items := by
    rw [List.append_nil, ← other.words_text, ← run.words_text, sameText]
  obtain ⟨sameCount, -⟩ := Phrase.run_unique other.phrase_grammatical run.phrase_grammatical
    (ending_of_plain otherLeads.plain) (ending_of_plain leads.plain) (by simp [EndsRun]) sameWords
  rw [length_numbers_phrase, length_numbers_phrase] at sameCount
  exact ⟨sameText, sameCount⟩

section Words

variable {text : List Char} {run : Phrase Word} {later : List Word}

theorem exists_plain_of_words (grammatical : run.Grammatical Word.kind)
    (plain : run.ending = none) (shape : Lexeme.words text = run.items ++ later) :
    ∃ sentence : Sentence, sentence.tail = none ∧ sentence.text = Lexeme.written run.items ∧
      sentence.numbers.length = run.numbers.length := by
  have split := Lexeme.written_words text
  rw [shape, Lexeme.written_append] at split
  rw [Phrase.items_of_plain plain, List.cons_append] at shape
  obtain ⟨numeral, after, rfl, closes, afterWords⟩ :=
    Lexeme.numeral_of_words shape grammatical.first
  obtain ⟨continued, rest, rfl, restWords, length⟩ :=
    Lexeme.exists_continued grammatical.further closes.stops afterWords
  refine ⟨⟨numeral, continued, none, by simp⟩, rfl, ?_, ?_⟩
  · rw [← Lexeme.written_words rest, restWords, ← List.append_assoc] at split
    simpa [Sentence.text, tailText] using (List.append_cancel_right split).symm
  · simp [Sentence.numbers, Phrase.numbers, length]

/-- The run that the words of a text start with, up to where they end it, leads the text. -/
theorem exists_leads (grammatical : run.Grammatical Word.kind) (plain : run.ending = none)
    (ends : EndsRun (later.map Word.kind)) (shape : Lexeme.words text = run.items ++ later) :
    ∃ sentence : Sentence, sentence.Leads text ∧ sentence.text = Lexeme.written run.items ∧
      sentence.numbers.length = run.numbers.length := by
  obtain ⟨sentence, sentencePlain, sentenceText, count⟩ :=
    exists_plain_of_words grammatical plain shape
  have split := Lexeme.written_words text
  rw [shape, Lexeme.written_append, ← sentenceText] at split
  refine ⟨sentence, ⟨sentencePlain, ⟨_, split⟩, ?_⟩, sentenceText, count⟩
  intro other otherPlain otherFront
  by_contra longer
  obtain ⟨more, otherText⟩ := List.prefix_of_prefix_length_le ⟨_, split⟩ otherFront
    (Nat.le_of_lt (Nat.not_le.mp longer))
  have moreFront : more <+: Lexeme.written later := by
    rw [← otherText, ← split] at otherFront
    exact (List.prefix_append_right_inj _).mp otherFront
  -- However the text is cut behind the run, no word there continues it.
  have moreEnds : EndsRun ((Lexeme.words more).map Word.kind) := by
    apply Lexeme.endsRun_of_isPrefix _ moreFront
    rwa [Lexeme.words_append shape]
  have sameWords : run.items ++ Lexeme.words more = other.phrase.items := by
    rw [← Lexeme.words_written_append shape moreFront, ← other.words_text, ← otherText,
      sentenceText]
  obtain ⟨-, nothing⟩ := Phrase.run_unique grammatical other.phrase_grammatical plain
    (ending_of_plain otherPlain) moreEnds sameWords
  obtain rfl := Lexeme.words_eq_nil nothing
  rw [List.append_nil] at otherText
  rw [otherText] at longer
  exact longer (Nat.le_refl _)

end Words

end Sentence

/-! ## How parsing fails -/

theorem isPrefix_kinds_beforeEnd (tokens : List Token) :
    ((beforeEnd tokens).map Token.word).map Word.kind <+: tokens.map Token.kind := by
  rw [List.map_map]
  exact (List.takeWhile_prefix _).map _

namespace Specification

/-- The tokens start with a run of numbers, and the later ones do not continue it. -/
structure LeadingRun (tokens : List Token) (run : Phrase Token) (later : List Token) : Prop where
  shape : tokens = run.items ++ later
  grammatical : run.Grammatical Token.kind
  plain : run.ending = none
  ends : EndsRun (later.map Token.kind)

/-- Tokens that start with a number are rejected for an ellipsis behind a run that is too short
for it, or else for an extraneous token. -/
theorem ofTokens_rejected {tokens : List Token} {cause : GrammarError}
    (failed : ofTokens tokens = .error cause) (starts : [.number] <+: tokens.map Token.kind) :
    ∃ (run : Phrase Token) (later : List Token), LeadingRun tokens run later ∧
      ((∃ comma ellipsis behind, later = comma :: ellipsis :: behind ∧ comma.kind = .comma ∧
          ellipsis.kind = .ellipsis ∧ run.numbers.length < minimumTerms ∧
            cause = .fewNumbers ellipsis run.numbers.length) ∨
        ((∃ token ∈ tokens, cause = .extraneous token) ∧
          ([.comma, .ellipsis] <+: later.map Token.kind →
            minimumTerms ≤ run.numbers.length))) := by
  rcases Cursor.exists_longest_phrase tokens with headless |
    ⟨phrase, later, shape, grammatical, blocked | ⟨noEnding, few, ellipsisNext⟩⟩
  · obtain ⟨first, others, rfl, isNumber⟩ := prefix_map_iff.mp starts
    exact absurd isNumber (headless first others rfl)
  · have extraneous : ∃ token ∈ tokens, cause = .extraneous token := by
      rcases ofTokens_behind_phrase shape grammatical blocked with ⟨-, parsed⟩ |
        ⟨token, others, rfl, -, parsed⟩
      · rw [failed] at parsed
        cases parsed
      · rw [failed] at parsed
        exact ⟨token, by simp [shape], Except.error.inj parsed⟩
    -- The run is the phrase without its ending, which belongs to what is behind the run.
    obtain ⟨first, further, ending⟩ := phrase
    refine ⟨⟨first, further, none⟩, Phrase.endingItems ⟨first, further, ending⟩ ++ later,
      ⟨?_, ⟨grammatical.first, grammatical.further, by simp, by simp⟩, rfl, ?_⟩,
      .inr ⟨extraneous, ?_⟩⟩
    · rw [shape]
      simp [Phrase.items, Phrase.endingItems]
    · cases ending with
      | none =>
        exact ⟨fun number => blocked ⟨_, by simp [Phrase.continuations], number⟩,
          fun separated => blocked ⟨_, by simp [Phrase.continuations], separated⟩⟩
      | some ending =>
        exact Cursor.stuck_iff.mp (Cursor.stuck_ending (grammatical.ending ending rfl) later)
    · intro ellipsisNext
      cases ending with
      | none => exact absurd ⟨_, by simp [Phrase.continuations], ellipsisNext⟩ blocked
      | some ending => exact grammatical.enough rfl
  · obtain ⟨comma, ellipsis, behind, rfl, isComma, isEllipsis⟩ :=
      pair_prefix_map_iff.mp ellipsisNext
    have parsed : ofTokens tokens = .error (.fewNumbers ellipsis phrase.numbers.length) :=
      Cursor.parseAmong_few shape grammatical noEnding few isComma isEllipsis 0
    rw [failed] at parsed
    exact ⟨phrase, _, ⟨shape, grammatical, noEnding, endsRun_of_ellipsis ellipsisNext⟩,
      .inl ⟨comma, ellipsis, behind, rfl, isComma, isEllipsis, few, Except.error.inj parsed⟩⟩

end Specification

/-! ## What a rejection reports -/

/-- The fault is reported under the code, at the offset of the source. -/
structure GrammarError.Reported (cause : GrammarError) (code : String) (source : String)
    (offset : Nat) : Prop where
  code : cause.diagnostic.code = some code
  location : cause.diagnostic.location = some (.ofOffset source offset)

namespace Specification

open Lexeme

theorem message_fewNumbers (ellipsis : Token) (count : Nat) :
    (GrammarError.fewNumbers ellipsis count).message =
      "Invalid ellipsis: need at least three numbers before ellipsis, got " ++ toString count := rfl

/-- A separator that an ellipsis follows stands right behind the run at the front of the text. -/
def EllipsisBehind (run : Sentence) (separator : Separator) (text : List Char) : Prop :=
  run.text ++ (separator.text ++ ellipsisText) <+: text

/-- The fault and its place are those that the characters of the text call for. -/
structure Diagnosed (source : String) (cause : GrammarError) : Prop where
  token : ∃ tokens, tokenize source = .ok tokens ∧ cause.token ∈ tokens ∧
    cause.diagnostic.location = some cause.token.location
  leadingComma : StartsWithSeparatedNumeral source.toList → cause.Reported "P001" source 0
  loneComma : StartsWithSeparator source.toList → ¬ StartsWithSeparatedNumeral source.toList →
    cause.Reported "P002" source 0
  noNumeral : ¬ StartsWithSeparator source.toList → ¬ StartsWithNumeral source.toList →
    cause.Reported "P002" source 0
  /-- What is at fault behind a numeral depends only on the longest run of them. -/
  exists_run : StartsWithNumeral source.toList → ∃ run : Sentence, run.Leads source.toList
  fewNumbers : ∀ (run : Sentence) (separator : Separator), run.Leads source.toList →
    EllipsisBehind run separator source.toList → run.numbers.length < 3 →
      cause.Reported "P003" source (run.text.length + separator.text.length) ∧
        cause.message = "Invalid ellipsis: need at least three numbers before ellipsis, got " ++
          toString run.numbers.length
  extraneous : ∀ run : Sentence, run.Leads source.toList →
    ((∃ separator, EllipsisBehind run separator source.toList) →
      3 ≤ run.numbers.length) → cause.diagnostic.code = some "P004"

section Failures

variable {source : String} {cause : GrammarError}

/-- Without a numeral at the front, the fault is at the front. -/
theorem diagnosed_of_headless (within : IntegersWithin digitLimit source.toList)
    (failed : ofTokens (Token.ofWords source 0 (words source.toList)) = .error cause)
    (noNumeral : ¬ StartsWithNumeral source.toList) : Diagnosed source cause := by
  have kinds := Token.map_kind_ofWords source 0 (words source.toList)
  have first : ∃ first later, Token.ofWords source 0 (words source.toList) = first :: later ∧
      first.location = .ofOffset source 0 := by
    cases words source.toList with
    | nil => exact ⟨_, _, rfl, rfl⟩
    | cons word later => exact ⟨_, _, rfl, rfl⟩
  obtain ⟨first, later, shape, location⟩ := first
  have headless : ∀ head behind,
      Token.ofWords source 0 (words source.toList) = head :: behind → head.kind ≠ .number := by
    intro head behind split isNumber
    rw [startsWithNumeral_iff, ← prefix_append_end_iff (by simp), ← kinds, split] at noNumeral
    exact noNumeral (by simp [isNumber])
  have next : (Cursor.ofTokens (Token.ofWords source 0 (words source.toList))).peek 0 = first := by
    rw [shape]
    rfl
  have separated : [.comma, .number] <+: (Token.ofWords source 0 (words source.toList)).map
      Token.kind ↔ StartsWithSeparatedNumeral source.toList := by
    rw [startsWithSeparatedNumeral_iff, kinds, prefix_append_end_iff (by simp)]
  have parsed := ofTokens_headless headless
  rw [failed, next] at parsed
  have token : cause.token = first := by
    rw [Except.error.inj parsed]
    split <;> rfl
  have reported (code : String) (isCode : cause.code = code) : cause.Reported code source 0 :=
    ⟨congrArg some isCode, by simp [GrammarError.diagnostic, token, location]⟩
  constructor
  case token =>
    refine ⟨_, Token.tokenize_eq within, ?_, rfl⟩
    rw [token, shape]
    exact List.mem_cons_self
  case leadingComma =>
    intro starts
    apply reported
    rw [Except.error.inj parsed, if_pos (separated.mpr starts)]
    rfl
  case loneComma =>
    intro _ notSeparated
    apply reported
    rw [Except.error.inj parsed, if_neg (mt separated.mp notSeparated)]
    rfl
  case noNumeral =>
    intro noSeparator _
    have notSeparated : ¬ StartsWithSeparatedNumeral source.toList := by
      rintro ⟨separator, numeral, isFront⟩
      exact noSeparator ⟨separator, (List.prefix_append _ _).trans isFront⟩
    apply reported
    rw [Except.error.inj parsed, if_neg (mt separated.mp notSeparated)]
    rfl
  case exists_run =>
    intro starts
    exact absurd starts noNumeral
  case fewNumbers =>
    intro run separator leads
    exact absurd leads.startsWithNumeral noNumeral
  case extraneous =>
    intro run leads
    exact absurd leads.startsWithNumeral noNumeral

section Behind

variable {run : Phrase Token} {later : List Token}
  (leading : LeadingRun (Token.ofWords source 0 (words source.toList)) run later)

include leading

theorem words_of_leadingRun :
    words source.toList = (run.map Token.word).items ++ (beforeEnd later).map Token.word := by
  have real : ∀ token ∈ run.items, (token.kind != .endOfInput) = true := fun token member =>
    bne_iff_ne.mpr (Phrase.kind_ne_end leading.grammatical token member)
  have wordsReal : ∀ word ∈ words source.toList, word.kind ≠ .endOfInput :=
    kind_ne_end_of_mem_words
  have wordsOf := map_word_beforeEnd source 0 wordsReal
  rw [leading.shape, beforeEnd, List.takeWhile_append_of_pos real, List.map_append,
    ← Phrase.items_map] at wordsOf
  exact wordsOf.symm

theorem exists_leads_of_leadingRun : ∃ sentence : Sentence, sentence.Leads source.toList ∧
    sentence.text = written (run.map Token.word).items ∧
      sentence.numbers.length = run.numbers.length := by
  have grammatical := (Phrase.grammatical_map Token.word Word.kind run).mpr leading.grammatical
  have plain : (run.map Token.word).ending = none := by simp [Phrase.map, leading.plain]
  obtain ⟨sentence, leads, sentenceText, count⟩ := Sentence.exists_leads grammatical plain
    (leading.ends.of_isPrefix (isPrefix_kinds_beforeEnd later)) (words_of_leadingRun leading)
  rw [Phrase.numbers_map, List.length_map] at count
  exact ⟨sentence, leads, sentenceText, count⟩

variable {sentence : Sentence} (leads : sentence.Leads source.toList)

include leads

theorem text_and_count_of_leads : sentence.text = written (run.map Token.word).items ∧
    sentence.numbers.length = run.numbers.length := by
  obtain ⟨found, foundLeads, foundText, foundCount⟩ := exists_leads_of_leadingRun leading
  obtain ⟨sameText, sameCount⟩ := foundLeads.unique leads
  exact ⟨sameText.trans foundText, sameCount.trans foundCount⟩

theorem text_append_of_leads :
    source.toList = sentence.text ++ written ((beforeEnd later).map Token.word) := by
  rw [(text_and_count_of_leads leading leads).1, ← written_append, ← words_of_leadingRun leading,
    written_words]

theorem words_behind_of_ellipsisBehind {separator : Separator}
    (behind : EllipsisBehind sentence separator source.toList) :
    ∃ rest, (beforeEnd later).map Token.word =
      ⟨.comma, separator.text⟩ :: ⟨.ellipsis, ellipsisText⟩ :: rest := by
  rw [EllipsisBehind, text_append_of_leads leading leads] at behind
  obtain ⟨rest, isRest⟩ := (List.prefix_append_right_inj _).mp behind
  rw [← words_append (words_of_leadingRun leading), ← isRest, List.append_assoc,
    words_separated_ellipsis]
  exact ⟨_, rfl⟩

theorem exists_ellipsisBehind {comma ellipsis : Token} {others : List Token}
    (shape : later = comma :: ellipsis :: others) (isComma : comma.kind = .comma)
    (isEllipsis : ellipsis.kind = .ellipsis) :
    ∃ separator, EllipsisBehind sentence separator source.toList := by
  have starts : [.comma, .ellipsis] <+:
      (words (written ((beforeEnd later).map Token.word))).map Word.kind := by
    rw [words_append (words_of_leadingRun leading), shape]
    simp [beforeEnd, isComma, isEllipsis, Token.word]
  obtain ⟨separator, isFront⟩ := exists_separated_ellipsis starts
  refine ⟨separator, ?_⟩
  rw [EllipsisBehind, text_append_of_leads leading leads]
  exact (List.prefix_append_right_inj _).mpr isFront

/-- The ellipsis stands behind the characters of the run and of the separator. -/
theorem location_of_ellipsisBehind (within : IntegersWithin digitLimit source.toList)
    {separator : Separator} (behind : EllipsisBehind sentence separator source.toList)
    {comma ellipsis : Token} {others : List Token} (shape : later = comma :: ellipsis :: others)
    (isComma : comma.kind = .comma) :
    ellipsis.location =
      .ofOffset source ((sentence.text.length + separator.text.length : Nat) : Int) := by
  obtain ⟨rest, restShape⟩ := words_behind_of_ellipsisBehind leading leads behind
  have commaWord : comma.word = ⟨.comma, separator.text⟩ := by
    rw [shape] at restShape
    simp only [beforeEnd, isComma, List.takeWhile_cons] at restShape
    exact (List.cons.inj restShape).1
  have span : Token.span (run.items ++ [comma]) =
      sentence.text.length + separator.text.length := by
    rw [Token.span_eq_length_written, List.map_append, ← Phrase.items_map, written_append,
      ← (text_and_count_of_leads leading leads).1, List.length_append]
    simp [written, commaWord]
  have place := (Token.partition_ofWords within).located (run.items ++ [comma]) ellipsis others
    (by rw [leading.shape, shape]; simp)
  rw [place, span, Location.ofOffset]

end Behind

/-- With a numeral at the front, the fault is behind the longest run there. -/
theorem diagnosed_of_run (within : IntegersWithin digitLimit source.toList)
    (failed : ofTokens (Token.ofWords source 0 (words source.toList)) = .error cause)
    (numeral : StartsWithNumeral source.toList) : Diagnosed source cause := by
  have starts := startsWithNumeral_iff.mp numeral
  have noSeparator : ¬ StartsWithSeparator source.toList := by
    rw [startsWithSeparator_iff]
    intro comma
    obtain ⟨others, shape⟩ := starts
    rw [← shape] at comma
    simp at comma
  obtain ⟨run, later, leading, outcome⟩ := ofTokens_rejected failed
    (by
      rw [Token.map_kind_ofWords]
      exact starts.trans (List.prefix_append _ _))
  constructor
  case token =>
    refine ⟨_, Token.tokenize_eq within, ?_, rfl⟩
    rcases outcome with ⟨comma, ellipsis, others, rfl, -, -, -, rfl⟩ | ⟨⟨token, member, rfl⟩, -⟩
    · rw [leading.shape]
      simp [GrammarError.token]
    · exact member
  case leadingComma =>
    rintro ⟨separator, other, isFront⟩
    exact absurd ⟨separator, (List.prefix_append _ _).trans isFront⟩ noSeparator
  case loneComma =>
    intro separator
    exact absurd separator noSeparator
  case noNumeral =>
    intro _ noNumeral
    exact absurd numeral noNumeral
  case exists_run =>
    intro _
    obtain ⟨sentence, leads, -⟩ := exists_leads_of_leadingRun leading
    exact ⟨sentence, leads⟩
  case fewNumbers =>
    intro sentence separator leads behind short
    have count := (text_and_count_of_leads leading leads).2
    rcases outcome with ⟨comma, ellipsis, others, shape, isComma, -, -, rfl⟩ | ⟨-, enough⟩
    · refine ⟨⟨rfl, ?_⟩, ?_⟩
      · exact congrArg some
          (location_of_ellipsisBehind leading leads within behind shape isComma)
      · rw [count, message_fewNumbers]
    · obtain ⟨rest, restShape⟩ := words_behind_of_ellipsisBehind leading leads behind
      have isFront := isPrefix_kinds_beforeEnd later
      rw [restShape] at isFront
      have many := enough (List.IsPrefix.trans (by simp) isFront)
      rw [← count] at many
      exact absurd many (Nat.not_le.mpr short)
  case extraneous =>
    intro sentence leads sufficient
    rcases outcome with ⟨comma, ellipsis, others, shape, isComma, isEllipsis, few, -⟩ |
      ⟨⟨token, -, rfl⟩, -⟩
    · have many := sufficient (exists_ellipsisBehind leading leads shape isComma isEllipsis)
      rw [(text_and_count_of_leads leading leads).2] at many
      exact absurd many (Nat.not_le.mpr few)
    · rfl

end Failures

/-- Every rejection by the grammar is the one that the characters of the text call for. -/
theorem diagnosed_of_ofText {source : String} {cause : GrammarError}
    (rejected : ofText source = .error (.grammar cause)) : Diagnosed source cause := by
  by_cases within : IntegersWithin digitLimit source.toList
  · have failed := (ofText_eq_grammar_iff (Token.tokenize_eq within) _).mp rejected
    by_cases numeral : StartsWithNumeral source.toList
    · exact diagnosed_of_run within failed numeral
    · exact diagnosed_of_headless within failed numeral
  · obtain ⟨word, -, -, failed⟩ := Token.tokenize_error within
    rw [ofText, failed] at rejected
    cases rejected

/-- An ellipsis behind two numbers, whatever follows it. -/
theorem diagnosed_short_run :
    ∃ cause, ofText "1,2 , ...x" = .error (.grammar cause) ∧ Diagnosed "1,2 , ...x" cause ∧
      cause.Reported "P003" "1,2 , ...x" 6 := by
  have rejected : (ofText "1,2 , ...x").map (fun _ => ()) =
      .error (.grammar (.fewNumbers ⟨.ellipsis, "...", none, .ofOffset "1,2 , ...x" 6⟩ 2)) := by
    decide +kernel
  cases failed : ofText "1,2 , ...x" with
  | ok specification =>
    rw [failed] at rejected
    cases rejected
  | error fault =>
    rw [failed] at rejected
    cases rejected
    exact ⟨_, rfl, diagnosed_of_ofText failed, rfl, rfl⟩

end Specification

end Progressions
