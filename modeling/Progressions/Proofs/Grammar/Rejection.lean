import Progressions.Proofs.Grammar.Language
import Progressions.Proofs.Token.Partition

/-!
# Extraneous tokens

A text is rejected for an extraneous token when its words start with a phrase that goes on with a
word which does not continue it.  The text in front of that token is a specification then, and no
longer one starts the text: wherever it is cut behind that place, the cut leaves the same word
there, or an invalid one, and so nothing that continues the phrase.
-/

set_option autoImplicit false

namespace Progressions

namespace Lexeme

theorem starts_words_iff {text : List Char} {kind : TokenKind} :
    [kind] <+: (words text).map Word.kind ↔ text ≠ [] ∧ (cut text).kind = kind := by
  by_cases empty : text = []
  · simp [empty, words_nil]
  · rw [words, if_neg empty]
    simp [empty, eq_comm]

/-- A text that is cut short starts with no class of words that the whole text does not start
with. -/
theorem starts_words_of_isPrefix {front text : List Char} {kind : TokenKind}
    (starts : [kind] <+: (words front).map Word.kind) (valid : kind ≠ .invalid)
    (isFront : front <+: text) : [kind] <+: (words text).map Word.kind := by
  obtain ⟨nonempty, isKind⟩ := starts_words_iff.mp starts
  rw [starts_words_iff]
  refine ⟨?_, ?_⟩
  · rintro rfl
    exact nonempty (List.prefix_nil.mp isFront)
  · rcases kind_cut_of_isPrefix isFront with same | invalid
    · rw [← same, isKind]
    · exact absurd (isKind.symm.trans invalid) valid

theorem separated_words_of_isPrefix {front text : List Char} {kind : TokenKind}
    (separated : [.comma, kind] <+: (words front).map Word.kind) (valid : kind ≠ .invalid)
    (isFront : front <+: text) : [.comma, kind] <+: (words text).map Word.kind := by
  obtain ⟨kinds, shape⟩ := separated
  obtain ⟨comma, later, shape, isComma, laterKinds⟩ := List.map_eq_cons_iff.mp shape.symm
  obtain ⟨rest, cuts, rfl⟩ := words_eq_cons shape
  rw [isComma] at cuts
  have starts : [kind] <+: (words rest).map Word.kind := by
    rw [laterKinds]
    exact List.prefix_append [kind] kinds
  obtain ⟨others, cutsText, isRest⟩ :=
    cut_separator_of_isPrefix cuts isFront (starts_words_iff.mp starts).1
  have nonempty : comma.text ≠ [] :=
    text_ne_nil_of_mem_words comma (by rw [shape]; exact List.mem_cons_self)
  rw [words_of_cut cutsText nonempty]
  exact (List.cons_prefix_cons).mpr ⟨rfl, starts_words_of_isPrefix starts valid isRest⟩

/-- What continues a phrase and is cut short continued it before. -/
theorem continues_of_isPrefix {phrase : Phrase Word} {front text : List Char}
    (continues : phrase.Continues ((words front).map Word.kind)) (isFront : front <+: text) :
    phrase.Continues ((words text).map Word.kind) := by
  obtain ⟨kinds, member, starts⟩ := continues
  obtain ⟨kind, -, valid, shape⟩ := Phrase.exists_kind_of_mem_continuations member
  refine ⟨kinds, member, ?_⟩
  rcases shape with rfl | rfl
  · exact starts_words_of_isPrefix starts valid isFront
  · exact separated_words_of_isPrefix starts valid isFront

end Lexeme

namespace Specification

variable {source : String}

/-- The text is a specification. -/
def Accepted (source : String) : Prop := ∃ specification, ofText source = .ok specification

theorem accepted_of_phrase {phrase : Phrase Word}
    (within : Lexeme.IntegersWithin digitLimit source.toList)
    (grammatical : phrase.Grammatical Word.kind)
    (shape : Lexeme.words source.toList = phrase.items) : Accepted source := by
  obtain ⟨sentence, isText⟩ := Sentence.exists_sentence grammatical shape
  obtain ⟨specification, accepted, -⟩ := ofText_sentence within isText
  exact ⟨specification, accepted⟩

/-- The words of the text start with a grammatical phrase, and behind it, at the offset, stand some
that do not continue it. -/
structure BreaksOff (source : String) (phrase : Phrase Word) (later : List Word) : Prop where
  words : Lexeme.words source.toList = phrase.items ++ later
  grammatical : phrase.Grammatical Word.kind
  goesOn : later ≠ []
  blocked : ¬ phrase.Continues (later.map Word.kind)

theorem ofText_eq_grammar_iff {tokens : List Token} (read : tokenize source = .ok tokens)
    (cause : GrammarError) :
    ofText source = .error (.grammar cause) ↔ ofTokens tokens = .error cause := by
  cases parsed : ofTokens tokens <;> simp [ofText, read, parsed, Except.mapError]

theorem ofText_of_breaksOff {phrase : Phrase Word} {later : List Word}
    (within : Lexeme.IntegersWithin digitLimit source.toList)
    (breaksOff : BreaksOff source phrase later) :
    ∃ token, ofText source = .error (.grammar (.extraneous token)) := by
  have read := Token.tokenize_eq within
  rw [breaksOff.words] at read
  obtain ⟨front, tokens, words⟩ := Token.ofWords_append source 0 phrase.items later
  rw [tokens] at read
  obtain ⟨original, rfl, rfl⟩ := Phrase.exists_of_map words
  obtain ⟨word, others, rfl⟩ := List.exists_cons_of_ne_nil breaksOff.goesOn
  refine ⟨_, (ofText_eq_grammar_iff read _).mpr ((ofTokens_eq_extraneous_iff _ _).mpr
    ⟨original, _, rfl, ?_, ?_, ?_⟩)⟩
  · exact (Phrase.grammatical_map Token.word Word.kind original).mp breaksOff.grammatical
  · exact Lexeme.kind_ne_end_of_mem_words word (by rw [breaksOff.words]; simp)
  · intro continues
    apply breaksOff.blocked
    rw [Phrase.continues_map]
    rw [← Token.ofWords, Token.map_kind_ofWords, Phrase.continues_append_end] at continues
    exact continues

/-- An extraneous token is the first behind a phrase, and stands where that ends. -/
theorem breaksOff_of_ofText {token : Token}
    (rejected : ofText source = .error (.grammar (.extraneous token))) :
    Lexeme.IntegersWithin digitLimit source.toList ∧
      ∃ (phrase : Phrase Word) (later : List Word), BreaksOff source phrase later ∧
        token.location = .ofOffset source (Lexeme.written phrase.items).length := by
  by_cases within : Lexeme.IntegersWithin digitLimit source.toList
  · refine ⟨within, ?_⟩
    have failed := (ofText_eq_grammar_iff (Token.tokenize_eq within) _).mp rejected
    obtain ⟨phrase, behind, tokens, grammatical, real, blocked⟩ :=
      (ofTokens_eq_extraneous_iff _ _).mp failed
    obtain ⟨before, after, shape, words, rest⟩ := Token.exists_words_of_split tokens
    have image := Phrase.items_map Token.word phrase
    rw [words] at image
    rw [Nat.zero_add, ← image] at rest
    refine ⟨phrase.map Token.word, after, ⟨by rw [image, shape], ?_, ?_, ?_⟩, ?_⟩
    · exact (Phrase.grammatical_map Token.word Word.kind phrase).mpr grammatical
    · rintro rfl
      obtain ⟨rfl, -⟩ := List.cons.inj rest
      contradiction
    · rw [rest, Token.map_kind_ofWords, Phrase.continues_append_end] at blocked
      rwa [Phrase.continues_map]
    · cases after with
      | nil =>
        obtain ⟨rfl, -⟩ := List.cons.inj rest
        rfl
      | cons word others =>
        obtain ⟨rfl, -⟩ := List.cons.inj rest
        rfl
  · obtain ⟨word, -, -, failed⟩ := Token.tokenize_error within
    rw [ofText, failed] at rejected
    cases rejected

section Cuts

variable {phrase : Phrase Word} {later : List Word} (breaksOff : BreaksOff source phrase later)

include breaksOff

theorem written_of_breaksOff :
    source.toList = Lexeme.written phrase.items ++ Lexeme.written later := by
  rw [← Lexeme.written_append, ← breaksOff.words, Lexeme.written_words]

theorem written_later_ne_nil : Lexeme.written later ≠ [] := by
  obtain ⟨word, others, rfl⟩ := List.exists_cons_of_ne_nil breaksOff.goesOn
  have nonempty := Lexeme.text_ne_nil_of_mem_words word (by rw [breaksOff.words]; simp)
  simp [Lexeme.written_cons, nonempty]

theorem written_phrase_ne_nil : Lexeme.written phrase.items ≠ [] := by
  have nonempty := Lexeme.text_ne_nil_of_mem_words phrase.first
    (by rw [breaksOff.words]; simp [Phrase.items])
  simp [Phrase.items, Lexeme.written_cons, nonempty]

/-- What stands in front of the break is a specification. -/
theorem accepted_of_breaksOff (within : Lexeme.IntegersWithin digitLimit source.toList) :
    Accepted (String.ofList (Lexeme.written phrase.items)) := by
  have shape := Lexeme.words_written breaksOff.words
  refine accepted_of_phrase ?_ breaksOff.grammatical ?_
  · rw [String.toList_ofList, Lexeme.IntegersWithin, shape]
    intro word member
    exact within word (by rw [breaksOff.words]; exact List.mem_append_left _ member)
  · rw [String.toList_ofList, shape]

/-- A cut behind the break leaves the same phrase, broken off at the same place. -/
theorem breaksOff_of_isPrefix {front : List Char} (isFront : front <+: Lexeme.written later)
    (nonempty : front ≠ []) :
    BreaksOff (String.ofList (Lexeme.written phrase.items ++ front)) phrase
      (Lexeme.words front) := by
  refine ⟨?_, breaksOff.grammatical, ?_, ?_⟩
  · rw [String.toList_ofList, Lexeme.words_written_append breaksOff.words isFront]
  · intro none
    exact nonempty (Lexeme.words_eq_nil none)
  · intro continues
    have continuesLater := Lexeme.continues_of_isPrefix continues isFront
    rw [Lexeme.words_append breaksOff.words] at continuesLater
    exact breaksOff.blocked continuesLater

theorem not_accepted_of_isPrefix {front : List Char} (isFront : front <+: Lexeme.written later)
    (nonempty : front ≠ []) :
    ¬ Accepted (String.ofList (Lexeme.written phrase.items ++ front)) := by
  rintro ⟨specification, accepted⟩
  obtain ⟨token, rejected⟩ := ofText_of_breaksOff (within_of_ofText accepted)
    (breaksOff_of_isPrefix breaksOff isFront nonempty)
  rw [accepted] at rejected
  cases rejected

end Cuts

theorem eq_extraneous_of_code {cause : GrammarError} (code : cause.code = "P004") :
    ∃ token, cause = .extraneous token := by
  cases cause with
  | extraneous token => exact ⟨token, rfl⟩
  | leadingComma token => exact absurd code (by simp [GrammarError.code])
  | noNumbers token => exact absurd code (by simp [GrammarError.code])
  | fewNumbers ellipsis count => exact absurd code (by simp [GrammarError.code])

theorem message_extraneous (token : Token) :
    (GrammarError.extraneous token).message = "Found extraneous token in number sequence: " ++
      Text.quoted (GrammarError.remainder token.location) ++ ", " ++ grammarHelp := rfl

theorem remainder_ofOffset (source : String) (offset : Nat) :
    GrammarError.remainder (.ofOffset source offset) =
      String.ofList (source.toList.drop offset) := rfl

/-- A rejection for an extraneous token points behind the longest specification that the text
starts with, and quotes what is left of the text there. -/
theorem extraneous_behind_longest {source : String} {cause : GrammarError}
    (rejected : ofText source = .error (.grammar cause)) (code : cause.code = "P004") :
    ∃ offset : Nat, cause.diagnostic.location = some (.ofOffset source offset) ∧
      0 < offset ∧ offset < source.length ∧
      Accepted (String.ofList (source.toList.take offset)) ∧
      (∀ longer, offset < longer → ¬ Accepted (String.ofList (source.toList.take longer))) ∧
      cause.message = "Found extraneous token in number sequence: " ++
        Text.quoted (String.ofList (source.toList.drop offset)) ++ ", " ++ grammarHelp := by
  obtain ⟨token, rfl⟩ := eq_extraneous_of_code code
  obtain ⟨within, phrase, later, breaksOff, location⟩ := breaksOff_of_ofText rejected
  have split := written_of_breaksOff breaksOff
  have phraseNonempty := List.length_pos_iff.mpr (written_phrase_ne_nil breaksOff)
  have laterNonempty := List.length_pos_iff.mpr (written_later_ne_nil breaksOff)
  refine ⟨(Lexeme.written phrase.items).length, ?_, phraseNonempty, ?_, ?_, ?_, ?_⟩
  · simp [GrammarError.diagnostic, GrammarError.token, location]
  · rw [← String.length_toList, split, List.length_append]
    omega
  · rw [split, List.take_left]
    exact accepted_of_breaksOff breaksOff within
  · intro longer behind
    obtain ⟨more, rfl⟩ := Nat.exists_eq_add_of_lt behind
    rw [split, Nat.add_assoc, List.take_length_add_append]
    refine not_accepted_of_isPrefix breaksOff (List.take_prefix _ _) ?_
    intro none
    have lengths := congrArg List.length none
    rw [List.length_take, List.length_nil] at lengths
    omega
  · rw [message_extraneous, location, remainder_ofOffset]

theorem extraneous_behind_unbounded_run :
    ∃ cause, ofText "1,2,3,...,x" = .error (.grammar cause) ∧ cause.code = "P004" ∧
      ∃ offset : Nat, cause.diagnostic.location = some (.ofOffset "1,2,3,...,x" offset) ∧
        0 < offset ∧ offset < "1,2,3,...,x".length ∧
        Accepted (String.ofList ("1,2,3,...,x".toList.take offset)) ∧
        (∀ longer, offset < longer →
          ¬ Accepted (String.ofList ("1,2,3,...,x".toList.take longer))) ∧
        cause.message = "Found extraneous token in number sequence: " ++
          Text.quoted (String.ofList ("1,2,3,...,x".toList.drop offset)) ++ ", " ++
            grammarHelp := by
  have rejected : (ofText "1,2,3,...,x").map (fun _ => ()) =
      .error (.grammar (.extraneous ⟨.comma, ",", none, .ofOffset "1,2,3,...,x" 9⟩)) := by
    decide +kernel
  cases failed : ofText "1,2,3,...,x" with
  | ok specification =>
    rw [failed] at rejected
    cases rejected
  | error fault =>
    rw [failed] at rejected
    cases rejected
    exact ⟨_, rfl, rfl, extraneous_behind_longest failed rfl⟩

end Specification

end Progressions
