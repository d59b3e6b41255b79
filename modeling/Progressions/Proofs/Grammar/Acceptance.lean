import Progressions.Proofs.Grammar.Phrase

/-!
# What parsing accepts

Each cursor operation is described by the tokens that are left.  From that, parsing is seen to
take a whole phrase when an end follows it, and to fail on everything else.
-/

set_option autoImplicit false

namespace Progressions

namespace Cursor

/-- The tokens that are left. -/
def rest (cursor : Cursor) : List Token := cursor.tokens.drop cursor.position

def skip (cursor : Cursor) (count : Nat) : Cursor :=
  { cursor with position := cursor.position + count }

@[simp] theorem rest_skip (cursor : Cursor) (count : Nat) :
    (cursor.skip count).rest = cursor.rest.drop count := by
  simp [rest, skip, List.drop_drop]

@[simp] theorem source_skip (cursor : Cursor) (count : Nat) :
    (cursor.skip count).source = cursor.source := rfl

theorem skip_skip (cursor : Cursor) (first second : Nat) :
    (cursor.skip first).skip second = cursor.skip (first + second) := by
  simp [skip, Nat.add_assoc]

theorem peek_eq (cursor : Cursor) (ahead : Nat) :
    cursor.peek ahead =
      (cursor.rest[ahead]?).getD (Token.atEnd cursor.source cursor.source.length) := by
  rw [peek, rest, List.getElem?_drop]

theorem atEnd_iff (cursor : Cursor) : cursor.atEnd = true ↔ beforeEnd cursor.rest = [] := by
  rw [atEnd, check, peek_eq]
  cases left : cursor.rest with
  | nil => simp [beforeEnd, Token.atEnd]
  | cons token later => simp [beforeEnd, List.takeWhile_cons]

theorem checkSeparated_iff {cursor : Cursor} {kind : TokenKind} (real : kind ≠ .endOfInput) :
    cursor.checkSeparated kind = true ↔ ∃ comma token later,
      cursor.rest = comma :: token :: later ∧ comma.kind = .comma ∧ token.kind = kind := by
  rw [checkSeparated, check, peek_eq, peek_eq]
  match left : cursor.rest with
  | [] => simp [Token.atEnd]
  | [token] => simp [Token.atEnd, real.symm]
  | comma :: token :: later =>
    simp only [List.getElem?_cons_zero, List.getElem?_cons_succ, Option.getD_some,
      Bool.and_eq_true, beq_iff_eq]
    constructor
    · rintro ⟨isComma, isKind⟩
      exact ⟨comma, token, later, rfl, isComma, isKind⟩
    · rintro ⟨_, _, _, shape, isComma, isKind⟩
      cases shape
      exact ⟨isComma, isKind⟩

theorem advance_of_rest {cursor : Cursor} {token : Token} {later : List Token}
    (left : cursor.rest = token :: later) (real : token.kind ≠ .endOfInput) :
    cursor.advance = (token, cursor.skip 1) := by
  have next : cursor.peek 0 = token := by
    rw [peek_eq, left]
    rfl
  have notEnd : cursor.atEnd = false := by
    rw [atEnd, check, next]
    simpa using real
  simp [advance, next, notEnd, skip]

theorem advanceBy_two {cursor : Cursor} {first second : Token} {later : List Token}
    (left : cursor.rest = first :: second :: later) (firstReal : first.kind ≠ .endOfInput)
    (secondReal : second.kind ≠ .endOfInput) : cursor.advanceBy 2 = cursor.skip 2 := by
  have leftNext : (cursor.skip 1).rest = second :: later := by
    rw [rest_skip, left]
    rfl
  simp only [advanceBy, advance_of_rest left firstReal, advance_of_rest leftNext secondReal,
    skip_skip]

/-! ## Bounds -/

theorem real_of_mem_boundKinds {kind : TokenKind} (member : kind ∈ boundKinds) :
    kind ≠ .endOfInput := by
  rintro rfl
  revert member
  decide

theorem boundAmong_of_rest {cursor : Cursor} {comma bound : Token} {later : List Token}
    {kinds : List TokenKind} (left : cursor.rest = comma :: bound :: later)
    (isComma : comma.kind = .comma) (member : bound.kind ∈ kinds)
    (real : ∀ kind ∈ kinds, kind ≠ .endOfInput) :
    cursor.boundAmong kinds = (some bound, cursor.skip 2) := by
  induction kinds with
  | nil => contradiction
  | cons kind others inductionHypothesis =>
    have kindReal := real kind List.mem_cons_self
    rw [boundAmong]
    by_cases found : bound.kind = kind
    · have separated :=
        (checkSeparated_iff kindReal).mpr ⟨comma, bound, later, left, isComma, found⟩
      have commaReal : comma.kind ≠ .endOfInput := by simp [isComma]
      have boundReal : bound.kind ≠ .endOfInput := found ▸ kindReal
      have leftNext : (cursor.skip 1).rest = bound :: later := by
        rw [rest_skip, left]
        rfl
      rw [if_pos separated]
      simp only [advance_of_rest left commaReal, advance_of_rest leftNext boundReal, skip_skip]
    · have notSeparated : ¬cursor.checkSeparated kind = true := by
        rw [checkSeparated_iff kindReal]
        rintro ⟨first, second, others, shape, -, isKind⟩
        rw [left] at shape
        obtain ⟨rfl, rfl, rfl⟩ : comma = first ∧ bound = second ∧ later = others := by
          simpa using shape
        exact found isKind
      rw [if_neg notSeparated]
      exact inductionHypothesis ((List.mem_cons.mp member).resolve_left found)
        fun other otherMember => real other (List.mem_cons_of_mem kind otherMember)

theorem boundAmong_none {cursor : Cursor} {kinds : List TokenKind}
    (absent : ∀ kind ∈ kinds, cursor.checkSeparated kind = false) :
    cursor.boundAmong kinds = (none, cursor) := by
  induction kinds with
  | nil => rfl
  | cons kind others inductionHypothesis =>
    rw [boundAmong, if_neg (by simp [absent kind List.mem_cons_self])]
    exact inductionHypothesis fun other member => absent other (List.mem_cons_of_mem kind member)

/-! ## The run of numbers -/

theorem numbers_of_run {first : Token} {further : List (Further Token)} {later : List Token}
    (isNumber : first.kind = .number)
    (grammatical : ∀ part ∈ further, part.Grammatical Token.kind) (stuck : Stuck later) :
    (ofTokens (first :: further.flatMap Further.items ++ later)).numbers =
      (.ok (first :: further.map (·.number)),
        (ofTokens (first :: further.flatMap Further.items ++ later)).skip
          (1 + (further.flatMap Further.items).length)) := by
  simp [numbers, ofTokens, peek_eq, rest, isNumber, furtherNumbers_append grammatical stuck, skip]

/-- Without a number in front there is no phrase. -/
theorem numbers_headless {tokens : List Token}
    (headless : ∀ first later, tokens = first :: later → first.kind ≠ .number) :
    (ofTokens tokens).numbers =
      (.error (if [.comma, .number] <+: tokens.map Token.kind
        then .leadingComma ((ofTokens tokens).peek 0) else .noNumbers ((ofTokens tokens).peek 0)),
        ofTokens tokens) := by
  match tokens with
  | [] => simp [numbers, ofTokens, peek_eq, rest, Token.atEnd]
  | [token] =>
    have notNumber := headless token [] rfl
    simp [numbers, ofTokens, peek_eq, rest, Token.atEnd, notNumber]
  | token :: next :: later =>
    have notNumber := headless token (next :: later) rfl
    by_cases isComma : token.kind = .comma
    · by_cases isNumber : next.kind = .number
      · simp [numbers, ofTokens, peek_eq, rest, isComma, isNumber]
      · simp [numbers, ofTokens, peek_eq, rest, isComma, isNumber, Ne.symm isNumber]
    · simp [numbers, ofTokens, peek_eq, rest, isComma, notNumber, Ne.symm isComma]

/-! ## Whole phrases -/

theorem checkSeparated_iff_isPrefix {cursor : Cursor} {kind : TokenKind}
    (real : kind ≠ .endOfInput) :
    cursor.checkSeparated kind = true ↔ [.comma, kind] <+: cursor.rest.map Token.kind := by
  rw [checkSeparated_iff real, pair_prefix_map_iff]

theorem stuck_ending {ending : Ending Token} (grammatical : ending.Grammatical Token.kind)
    (later : List Token) : Stuck (ending.items ++ later) := by
  simp [Ending.items, Stuck, grammatical.comma, grammatical.ellipsis]

/-- An end continues no phrase. -/
theorem not_continues_of_ended {tokens : List Token} (ended : beforeEnd tokens = [])
    (phrase : Phrase Token) : ¬ phrase.Continues (tokens.map Token.kind) := by
  rintro ⟨front, member, isFront⟩
  obtain ⟨kind, real, -, shape⟩ := Phrase.exists_kind_of_mem_continuations member
  cases tokens with
  | nil => rcases shape with rfl | rfl <;> simp at isFront
  | cons token later =>
    have isEnd : token.kind = .endOfInput := by
      by_contra notEnd
      simp [beforeEnd, notEnd] at ended
    rcases shape with rfl | rfl <;> simp [isEnd, real] at isFront

theorem finish_of_ended {cursor : Cursor} (ended : beforeEnd cursor.rest = []) (terms : List Token)
    (continuation : Option Continuation) :
    cursor.finish terms continuation = (.ok ⟨cursor.source, terms, continuation⟩, cursor) := by
  rw [finish, if_pos ((atEnd_iff cursor).mpr ended)]

theorem finish_of_real {cursor : Cursor} {token : Token} {later : List Token}
    (left : cursor.rest = token :: later) (real : token.kind ≠ .endOfInput) (terms : List Token)
    (continuation : Option Continuation) :
    cursor.finish terms continuation = (.error (.extraneous token), cursor) := by
  have notEnded : ¬ cursor.atEnd = true := by
    rw [atEnd_iff, left]
    simp [beforeEnd, real]
  have next : cursor.peek 0 = token := by
    rw [peek_eq, left]
    rfl
  rw [finish, if_neg notEnded, next]

section Kinds

variable {kinds : List TokenKind} (same : ∀ kind, kind ∈ kinds ↔ kind ∈ boundKinds)

include same

/-- The bound of an ending is taken, if it has one or if none follows. -/
theorem boundAmong_ending {cursor : Cursor} {phrase : Phrase Token} {ending : Ending Token}
    {later : List Token} (isEnding : phrase.ending = some ending)
    (grammatical : ending.Grammatical Token.kind)
    (blocked : ¬ phrase.Continues (later.map Token.kind))
    (left : cursor.rest = ending.items ++ later) :
    (cursor.skip 2).boundAmong kinds =
      (ending.limit.map (·.2), cursor.skip ending.items.length) := by
  have real : ∀ kind ∈ kinds, kind ≠ .endOfInput := fun kind member =>
    real_of_mem_boundKinds ((same kind).mp member)
  obtain ⟨comma, ellipsis, limit⟩ := ending
  cases limit with
  | none =>
    have leftAfter : (cursor.skip 2).rest = later := by
      rw [rest_skip, left]
      rfl
    refine boundAmong_none fun kind member => ?_
    rw [Bool.eq_false_iff, Ne, checkSeparated_iff_isPrefix (real kind member), leftAfter]
    intro separated
    refine blocked ⟨_, ?_, separated⟩
    rw [Phrase.continuations, isEnding]
    exact List.mem_map_of_mem ((same kind).mp member)
  | some pair =>
    obtain ⟨separator, bound⟩ := pair
    obtain ⟨isComma, isBound⟩ := grammatical.limit separator bound rfl
    have leftAfter : (cursor.skip 2).rest = separator :: bound :: later := by
      rw [rest_skip, left]
      rfl
    rw [boundAmong_of_rest leftAfter isComma ((same _).mpr isBound) real, skip_skip]
    rfl

/-- A phrase is taken as a whole when what follows does not continue it. -/
theorem parseAmong_phrase {tokens later : List Token} {phrase : Phrase Token}
    (shape : tokens = phrase.items ++ later) (grammatical : phrase.Grammatical Token.kind)
    (blocked : ¬ phrase.Continues (later.map Token.kind)) (position : Nat) :
    parseAmong kinds ⟨tokens, position⟩ =
      ((ofTokens tokens).skip phrase.items.length).finish phrase.numbers
        (phrase.ending.map Ending.continuation) := by
  obtain ⟨first, further, ending⟩ := phrase
  let after := (ofTokens tokens).skip (1 + (further.flatMap Further.items).length)
  have split : tokens = first :: further.flatMap Further.items ++
      (Phrase.endingItems ⟨first, further, ending⟩ ++ later) := by
    rw [shape, Phrase.items, List.append_assoc]
  have left : after.rest = Phrase.endingItems ⟨first, further, ending⟩ ++ later := by
    rw [rest_skip, rest, ofTokens, split, List.drop_zero, Nat.add_comm]
    exact List.drop_left
  have numbers (stuck : Stuck (Phrase.endingItems ⟨first, further, ending⟩ ++ later)) :
      (ofTokens tokens).numbers = (.ok (first :: further.map (·.number)), after) := by
    dsimp only [after]
    rw [split]
    exact numbers_of_run grammatical.first grammatical.further stuck
  unfold parseAmong
  cases ending with
  | none =>
    have stuck : Stuck later := by
      rw [stuck_iff]
      exact ⟨fun number => blocked ⟨_, by simp [Phrase.continuations], number⟩,
        fun separated => blocked ⟨_, by simp [Phrase.continuations], separated⟩⟩
    have noEllipsis : after.checkSeparated .ellipsis = false := by
      rw [Bool.eq_false_iff, Ne, checkSeparated_iff_isPrefix (by decide), left]
      exact fun separated => blocked ⟨_, by simp [Phrase.continuations], separated⟩
    simp only [numbers stuck, noEllipsis, Bool.false_eq_true, if_false]
    simp [Phrase.numbers, Phrase.items, Phrase.endingItems, after, Nat.add_comm]
  | some ending =>
    have endingGrammatical := grammatical.ending ending rfl
    have enough : ¬(first :: further.map (·.number)).length < minimumTerms :=
      Nat.not_lt.mpr (grammatical.enough rfl)
    have bounded := boundAmong_ending same rfl endingGrammatical blocked left
    obtain ⟨separator, ellipsis, limit⟩ := ending
    have isComma : separator.kind = .comma := endingGrammatical.comma
    have isEllipsis : ellipsis.kind = .ellipsis := endingGrammatical.ellipsis
    have leftCons : ∃ others, after.rest = separator :: ellipsis :: others := ⟨_, left⟩
    obtain ⟨others, leftCons⟩ := leftCons
    have hasEllipsis : after.checkSeparated .ellipsis = true :=
      (checkSeparated_iff (by decide)).mpr ⟨_, _, _, leftCons, isComma, isEllipsis⟩
    have peeked : after.peek 1 = ellipsis := by
      rw [peek_eq, leftCons]
      rfl
    have advanced : after.advanceBy 2 = after.skip 2 :=
      advanceBy_two leftCons (by simp [isComma]) (by simp [isEllipsis])
    have position : after.skip (Ending.items ⟨separator, ellipsis, limit⟩).length =
        (ofTokens tokens).skip
          (Phrase.items ⟨first, further, some ⟨separator, ellipsis, limit⟩⟩).length := by
      simp only [after, skip_skip, Phrase.items, Phrase.endingItems, List.length_append,
        List.length_cons]
      congr 1
      omega
    simp only [numbers (stuck_ending endingGrammatical later), hasEllipsis, if_true, if_neg enough,
      peeked, advanced, bounded, position]
    rfl

end Kinds

theorem parseAmong_headless {kinds : List TokenKind} {tokens : List Token}
    (headless : ∀ first later, tokens = first :: later → first.kind ≠ .number) (position : Nat) :
    (parseAmong kinds ⟨tokens, position⟩).1 =
      .error (if [.comma, .number] <+: tokens.map Token.kind
        then .leadingComma ((ofTokens tokens).peek 0)
        else .noNumbers ((ofTokens tokens).peek 0)) := by
  rw [parseAmong, numbers_headless headless]

/-- Too few numbers before an ellipsis end the parsing at it. -/
theorem parseAmong_few {kinds : List TokenKind} {tokens later : List Token}
    {phrase : Phrase Token} {comma ellipsis : Token}
    (shape : tokens = phrase.items ++ comma :: ellipsis :: later)
    (grammatical : phrase.Grammatical Token.kind) (noEnding : phrase.ending = none)
    (few : phrase.numbers.length < minimumTerms) (isComma : comma.kind = .comma)
    (isEllipsis : ellipsis.kind = .ellipsis) (position : Nat) :
    (parseAmong kinds ⟨tokens, position⟩).1 =
      .error (.fewNumbers ellipsis phrase.numbers.length) := by
  obtain ⟨first, further, ending⟩ := phrase
  cases noEnding
  rw [Phrase.items, Phrase.endingItems, List.append_nil] at shape
  have stuck : Stuck (comma :: ellipsis :: later) := by simp [Stuck, isComma, isEllipsis]
  have numbers := numbers_of_run grammatical.first grammatical.further stuck
  rw [← shape] at numbers
  let after := (ofTokens tokens).skip (1 + (further.flatMap Further.items).length)
  have left : after.rest = comma :: ellipsis :: later := by
    rw [rest_skip, rest, ofTokens, shape, List.drop_zero, Nat.add_comm]
    exact List.drop_left
  have hasEllipsis : after.checkSeparated .ellipsis = true :=
    (checkSeparated_iff (by decide)).mpr ⟨_, _, _, left, isComma, isEllipsis⟩
  have peeked : after.peek 1 = ellipsis := by
    rw [peek_eq, left]
    rfl
  have tooFew : (first :: further.map (·.number)).length < minimumTerms := few
  unfold parseAmong
  simp only [numbers, after, hasEllipsis, if_true, if_pos tooFew, peeked]
  rfl

/-- Every token list starts with a phrase that what follows does not continue, unless it starts
with no number or has too few of them before an ellipsis. -/
theorem exists_longest_phrase (tokens : List Token) :
    (∀ first later, tokens = first :: later → first.kind ≠ .number) ∨
      ∃ (phrase : Phrase Token) (later : List Token), tokens = phrase.items ++ later ∧
        phrase.Grammatical Token.kind ∧
          (¬ phrase.Continues (later.map Token.kind) ∨
            (phrase.ending = none ∧ phrase.numbers.length < minimumTerms ∧
              [.comma, .ellipsis] <+: later.map Token.kind)) := by
  by_cases headless : ∀ first later, tokens = first :: later → first.kind ≠ .number
  · exact .inl headless
  · right
    simp only [not_forall, not_not] at headless
    obtain ⟨first, others, rfl, isNumber⟩ := headless
    obtain ⟨further, later, rfl, run, stuck⟩ := furtherNumbers_run others
    obtain ⟨noNumber, noSeparated⟩ := stuck_iff.mp stuck
    have withoutEnding : Phrase.Grammatical Token.kind ⟨first, further, none⟩ :=
      ⟨isNumber, run, by simp, by simp⟩
    by_cases ellipsisNext : [.comma, .ellipsis] <+: later.map Token.kind
    · by_cases few : (Phrase.numbers ⟨first, further, none⟩).length < minimumTerms
      · refine ⟨⟨first, further, none⟩, later, ?_, withoutEnding, .inr ⟨rfl, few, ellipsisNext⟩⟩
        simp [Phrase.items, Phrase.endingItems]
      · obtain ⟨comma, ellipsis, behind, rfl, isComma, isEllipsis⟩ :=
          pair_prefix_map_iff.mp ellipsisNext
        by_cases boundNext : ∃ kind ∈ boundKinds, [.comma, kind] <+: behind.map Token.kind
        · obtain ⟨kind, isBound, boundNext⟩ := boundNext
          obtain ⟨separator, bound, rest, rfl, isSeparator, isKind⟩ :=
            pair_prefix_map_iff.mp boundNext
          refine ⟨⟨first, further, some ⟨comma, ellipsis, some (separator, bound)⟩⟩, rest, ?_,
            ⟨isNumber, run, ?_, fun _ => Nat.not_lt.mp few⟩, .inl ?_⟩
          · simp [Phrase.items, Phrase.endingItems, Ending.items]
          · intro ending present
            cases present
            refine ⟨isComma, isEllipsis, ?_⟩
            intro _ _ limit
            cases limit
            exact ⟨isSeparator, isKind ▸ isBound⟩
          · rintro ⟨front, member, -⟩
            contradiction
        · refine ⟨⟨first, further, some ⟨comma, ellipsis, none⟩⟩, behind, ?_,
            ⟨isNumber, run, ?_, fun _ => Nat.not_lt.mp few⟩, .inl ?_⟩
          · simp [Phrase.items, Phrase.endingItems, Ending.items]
          · intro ending present
            cases present
            exact ⟨isComma, isEllipsis, by simp⟩
          · rintro ⟨front, member, isFront⟩
            obtain ⟨kind, isBound, rfl⟩ := List.mem_map.mp member
            exact boundNext ⟨kind, isBound, isFront⟩
    · refine ⟨⟨first, further, none⟩, later, ?_, withoutEnding, .inl ?_⟩
      · simp [Phrase.items, Phrase.endingItems]
      · rintro ⟨front, member, isFront⟩
        simp only [Phrase.continuations, List.mem_cons, List.not_mem_nil, or_false] at member
        rcases member with rfl | rfl | rfl
        · exact noNumber isFront
        · exact noSeparated isFront
        · exact ellipsisNext isFront

end Cursor

/-! ## Token lists -/

theorem Further.kind_ne_end {further : Further Token}
    (grammatical : further.Grammatical Token.kind) :
    ∀ token ∈ further.items, token.kind ≠ .endOfInput := by
  intro token member
  simp only [Further.items, List.mem_append, Option.mem_toList, List.mem_singleton] at member
  rcases member with comma | rfl
  · simp [grammatical.comma token comma]
  · simp [grammatical.number]

theorem Ending.kind_ne_end {ending : Ending Token} (grammatical : ending.Grammatical Token.kind) :
    ∀ token ∈ ending.items, token.kind ≠ .endOfInput := by
  intro token member
  obtain ⟨comma, ellipsis, limit⟩ := ending
  have isComma : comma.kind = .comma := grammatical.comma
  have isEllipsis : ellipsis.kind = .ellipsis := grammatical.ellipsis
  simp only [Ending.items, List.mem_cons] at member
  rcases member with rfl | rfl | member
  · simp [isComma]
  · simp [isEllipsis]
  · cases limit with
    | none => contradiction
    | some pair =>
      obtain ⟨isSeparator, isBound⟩ := grammatical.limit pair.1 pair.2 rfl
      simp only [List.mem_cons, List.not_mem_nil, or_false] at member
      rcases member with rfl | rfl
      · simp [isSeparator]
      · exact Cursor.real_of_mem_boundKinds isBound

theorem Phrase.kind_ne_end {phrase : Phrase Token} (grammatical : phrase.Grammatical Token.kind) :
    ∀ token ∈ phrase.items, token.kind ≠ .endOfInput := by
  intro token member
  simp only [Phrase.items, List.cons_append, List.mem_cons, List.mem_append,
    List.mem_flatMap] at member
  rcases member with rfl | ⟨part, partMember, member⟩ | member
  · simp [grammatical.first]
  · exact Further.kind_ne_end (grammatical.further part partMember) token member
  · cases present : phrase.ending with
    | none => simp [Phrase.endingItems, present] at member
    | some ending =>
      rw [Phrase.endingItems, present] at member
      exact Ending.kind_ne_end (grammatical.ending ending present) token member

theorem beforeEnd_dropWhile (tokens : List Token) :
    beforeEnd (tokens.dropWhile (·.kind != .endOfInput)) = [] := by
  have stopped := List.head?_dropWhile_not (fun token : Token => token.kind != .endOfInput) tokens
  cases left : tokens.dropWhile (·.kind != .endOfInput) with
  | nil => rfl
  | cons token later =>
    rw [left] at stopped
    have isEnd : token.kind = .endOfInput := by simpa using stopped
    simp [beforeEnd, isEnd]

theorem beforeEnd_append {phrase : Phrase Token} {later : List Token}
    (grammatical : phrase.Grammatical Token.kind) (ended : beforeEnd later = []) :
    beforeEnd (phrase.items ++ later) = phrase.items := by
  have inside : ∀ token ∈ phrase.items, (token.kind != .endOfInput) = true := fun token member =>
    bne_iff_ne.mpr (Phrase.kind_ne_end grammatical token member)
  rw [beforeEnd, List.takeWhile_append_of_pos inside]
  rw [beforeEnd] at ended
  rw [ended, List.append_nil]

namespace Specification

theorem ofTokens_phrase {tokens later : List Token} {phrase : Phrase Token}
    (shape : tokens = phrase.items ++ later) (grammatical : phrase.Grammatical Token.kind)
    (blocked : ¬ phrase.Continues (later.map Token.kind)) :
    ofTokens tokens = (((Cursor.ofTokens tokens).skip phrase.items.length).finish phrase.numbers
      (phrase.ending.map Ending.continuation)).1 :=
  congrArg Prod.fst (Cursor.parseAmong_phrase (fun _ => Iff.rfl) shape grammatical blocked 0)

theorem rest_behind_phrase {tokens later : List Token} {phrase : Phrase Token}
    (shape : tokens = phrase.items ++ later) :
    ((Cursor.ofTokens tokens).skip phrase.items.length).rest = later := by
  rw [Cursor.rest_skip, Cursor.rest, Cursor.ofTokens, shape, List.drop_zero]
  exact List.drop_left

/-- Behind a phrase that does not go on, tokens are accepted if they end there, and extraneous if
not. -/
theorem ofTokens_behind_phrase {tokens later : List Token} {phrase : Phrase Token}
    (shape : tokens = phrase.items ++ later) (grammatical : phrase.Grammatical Token.kind)
    (blocked : ¬ phrase.Continues (later.map Token.kind)) :
    (beforeEnd later = [] ∧
        ofTokens tokens = .ok (phrase.specification (Cursor.ofTokens tokens).source)) ∨
      ∃ token others, later = token :: others ∧ token.kind ≠ .endOfInput ∧
        ofTokens tokens = .error (.extraneous token) := by
  have parsed := ofTokens_phrase shape grammatical blocked
  have left := rest_behind_phrase shape
  by_cases ended : beforeEnd later = []
  · rw [← left] at ended
    rw [Cursor.finish_of_ended ended] at parsed
    rw [left] at ended
    exact .inl ⟨ended, parsed⟩
  · right
    cases later with
    | nil => exact absurd rfl ended
    | cons token others =>
      have real : token.kind ≠ .endOfInput := by
        intro isEnd
        simp [beforeEnd, isEnd] at ended
      rw [Cursor.finish_of_real left real] at parsed
      exact ⟨token, others, rfl, real, parsed⟩

/-- Behind its longest phrase a token list is accepted if it ends there, and extraneous if not. -/
theorem ofTokens_cases (tokens : List Token) :
    (∃ cause, ofTokens tokens = .error cause ∧ ∀ token, cause ≠ .extraneous token) ∨
      ∃ (phrase : Phrase Token) (later : List Token), tokens = phrase.items ++ later ∧
        phrase.Grammatical Token.kind ∧ ¬ phrase.Continues (later.map Token.kind) ∧
          ((beforeEnd later = [] ∧
              ofTokens tokens = .ok (phrase.specification (Cursor.ofTokens tokens).source)) ∨
            ∃ token others, later = token :: others ∧ token.kind ≠ .endOfInput ∧
              ofTokens tokens = .error (.extraneous token)) := by
  rcases Cursor.exists_longest_phrase tokens with headless |
    ⟨phrase, later, shape, grammatical, blocked | ⟨noEnding, few, ellipsisNext⟩⟩
  · left
    refine ⟨_, Cursor.parseAmong_headless headless 0, ?_⟩
    intro token
    split <;> simp
  · right
    exact ⟨phrase, later, shape, grammatical, blocked,
      ofTokens_behind_phrase shape grammatical blocked⟩
  · left
    obtain ⟨comma, ellipsis, others, rfl, isComma, isEllipsis⟩ :=
      pair_prefix_map_iff.mp ellipsisNext
    exact ⟨_, Cursor.parseAmong_few shape grammatical noEnding few isComma isEllipsis 0,
      by simp⟩

/-- Parsing accepts the tokens before the first end exactly when they are a grammatical phrase,
and keeps its parts. -/
theorem ofTokens_eq_ok_iff (tokens : List Token) (specification : Specification) :
    ofTokens tokens = .ok specification ↔
      ∃ phrase : Phrase Token, phrase.Grammatical Token.kind ∧ beforeEnd tokens = phrase.items ∧
        specification = phrase.specification (Cursor.ofTokens tokens).source := by
  constructor
  · intro success
    rcases ofTokens_cases tokens with ⟨cause, failed, -⟩ |
      ⟨phrase, later, shape, grammatical, -, ⟨ended, parsed⟩ | ⟨token, others, -, -, failed⟩⟩
    · rw [failed] at success
      cases success
    · refine ⟨phrase, grammatical, ?_, Except.ok.inj (success.symm.trans parsed)⟩
      rw [shape]
      exact beforeEnd_append grammatical ended
    · rw [failed] at success
      cases success
  · rintro ⟨phrase, grammatical, shape, rfl⟩
    have split : tokens = phrase.items ++ tokens.dropWhile (·.kind != .endOfInput) := by
      rw [← shape, beforeEnd, List.takeWhile_append_dropWhile]
    have ended := beforeEnd_dropWhile tokens
    rw [ofTokens_phrase split grammatical (Cursor.not_continues_of_ended ended phrase)]
    rw [Cursor.finish_of_ended (by rw [rest_behind_phrase split]; exact ended)]
    rfl

/-- A token is extraneous exactly when it follows a grammatical phrase and does not continue it,
whatever stands behind. -/
theorem ofTokens_eq_extraneous_iff (tokens : List Token) (token : Token) :
    ofTokens tokens = .error (.extraneous token) ↔
      ∃ (phrase : Phrase Token) (later : List Token), tokens = phrase.items ++ token :: later ∧
        phrase.Grammatical Token.kind ∧ token.kind ≠ .endOfInput ∧
          ¬ phrase.Continues ((token :: later).map Token.kind) := by
  constructor
  · intro failed
    rcases ofTokens_cases tokens with ⟨cause, otherwise, notExtraneous⟩ |
      ⟨phrase, later, shape, grammatical, blocked,
        ⟨-, parsed⟩ | ⟨found, others, rfl, real, extraneous⟩⟩
    · rw [failed] at otherwise
      exact absurd (Except.error.inj otherwise).symm (notExtraneous token)
    · rw [failed] at parsed
      cases parsed
    · rw [failed] at extraneous
      cases extraneous
      exact ⟨phrase, others, shape, grammatical, real, blocked⟩
  · rintro ⟨phrase, later, shape, grammatical, real, blocked⟩
    rw [ofTokens_phrase shape grammatical blocked,
      Cursor.finish_of_real (rest_behind_phrase shape) real]

end Specification

end Progressions
