import Progressions.Proofs.Grammar.Language
import Progressions.Proofs.Token.Partition

/-!
# Operations on any tokens

A cursor can be asked and moved by any operations in any order, over any token list: one without an
end token, with one in the middle, or with tokens that no text has.  It never gets behind the first
end token, in whichever order the kinds of bounds are tried.

Parsing is one of the operations.  It takes the tokens before the first end as a whole or fails, and
a last end token may as well be left out.
-/

set_option autoImplicit false

namespace Progressions

namespace Cursor

/-- What a cursor can be asked to do. -/
inductive Operation where
  /-- To show the token some places ahead or behind. -/
  | glance (ahead : Int)
  | check (kind : TokenKind)
  | checkSeparated (kind : TokenKind)
  | atEnd
  | advance
  /-- To advance a number of times, never if it is negative. -/
  | advanceBy (count : Int)
  | numbers
  | bound
  | parse

/-- What an operation gives, errors included. -/
inductive Finding where
  | token (found : Option Token)
  | truth (holds : Bool)
  | done
  | numbers (outcome : Except GrammarError (List Token))
  | specification (outcome : Except GrammarError Specification)

/-- An operation that tries the kinds of bounds in the given order, and the cursor after it. -/
def perform (kinds : List TokenKind) (cursor : Cursor) : Operation → Finding × Cursor
  | .glance ahead => (.token (cursor.glance? ahead), cursor)
  | .check kind => (.truth (cursor.check kind), cursor)
  | .checkSeparated kind => (.truth (cursor.checkSeparated kind), cursor)
  | .atEnd => (.truth cursor.atEnd, cursor)
  | .advance => (.token (some cursor.advance.1), cursor.advance.2)
  | .advanceBy count => (.done, cursor.advanceBy count.toNat)
  | .numbers => (.numbers cursor.numbers.1, cursor.numbers.2)
  | .bound => (.token (cursor.boundAmong kinds).1, (cursor.boundAmong kinds).2)
  | .parse => (.specification (cursor.parseAmong kinds).1, (cursor.parseAmong kinds).2)

/-- A run of operations: what each of them gives, and the cursor it leaves to the next. -/
def performAll (kinds : List TokenKind) (cursor : Cursor) :
    List Operation → List (Finding × Cursor)
  | [] => []
  | operation :: later =>
    cursor.perform kinds operation ::
      (cursor.perform kinds operation).2.performAll kinds later

/-! ## The order of the kinds -/

theorem boundAmong_eq (cursor : Cursor) (kinds : List TokenKind) :
    cursor.boundAmong kinds =
      if kinds.any cursor.checkSeparated then
        (some cursor.advance.2.advance.1, cursor.advance.2.advance.2)
      else
        (none, cursor) := by
  induction kinds with
  | nil => rfl
  | cons kind others inductionHypothesis =>
    rw [boundAmong, List.any_cons]
    cases found : cursor.checkSeparated kind with
    | true => rfl
    | false => exact inductionHypothesis

theorem boundAmong_perm {kinds others : List TokenKind} (sameKinds : kinds.Perm others)
    (cursor : Cursor) : cursor.boundAmong kinds = cursor.boundAmong others := by
  rw [boundAmong_eq, boundAmong_eq, sameKinds.any_eq]

theorem parseAmong_perm {kinds others : List TokenKind} (sameKinds : kinds.Perm others)
    (cursor : Cursor) : cursor.parseAmong kinds = cursor.parseAmong others := by
  unfold parseAmong
  simp only [boundAmong_perm sameKinds]

theorem perform_perm {kinds others : List TokenKind} (sameKinds : kinds.Perm others)
    (cursor : Cursor) (operation : Operation) :
    cursor.perform kinds operation = cursor.perform others operation := by
  cases operation with
  | bound => rw [perform, perform, boundAmong_perm sameKinds]
  | parse => rw [perform, perform, parseAmong_perm sameKinds]
  | _ => rfl

theorem performAll_perm {kinds others : List TokenKind} (sameKinds : kinds.Perm others)
    (cursor : Cursor) (operations : List Operation) :
    cursor.performAll kinds operations = cursor.performAll others operations := by
  induction operations generalizing cursor with
  | nil => rfl
  | cons operation later inductionHypothesis =>
    rw [performAll, performAll, perform_perm sameKinds, inductionHypothesis]

/-! ## Never behind the first end -/

/-- The cursor is over the tokens, and not behind the first end among them. -/
structure Inside (tokens : List Token) (cursor : Cursor) : Prop where
  sameTokens : cursor.tokens = tokens
  within : cursor.position ≤ (beforeEnd tokens).length

theorem beforeEnd_drop {tokens : List Token} {count : Nat}
    (within : count ≤ (beforeEnd tokens).length) :
    beforeEnd (tokens.drop count) = (beforeEnd tokens).drop count := by
  induction count generalizing tokens with
  | zero => rfl
  | succ count inductionHypothesis =>
    cases tokens with
    | nil => rfl
    | cons token later =>
      by_cases isEnd : token.kind = .endOfInput
      · simp [beforeEnd, isEnd] at within
      · have split : beforeEnd (token :: later) = token :: beforeEnd later := by
          simp [beforeEnd, isEnd]
        rw [split, List.length_cons] at within
        rw [split, List.drop_succ_cons, List.drop_succ_cons]
        apply inductionHypothesis
        omega

variable {tokens : List Token} {cursor : Cursor}

theorem inside_ofTokens (tokens : List Token) : Inside tokens (ofTokens tokens) :=
  ⟨rfl, Nat.zero_le _⟩

theorem Inside.skip (inside : Inside tokens cursor) {count : Nat}
    (left : count ≤ (beforeEnd cursor.rest).length) : Inside tokens (cursor.skip count) := by
  obtain ⟨sameTokens, within⟩ := inside
  subst sameTokens
  refine ⟨rfl, ?_⟩
  rw [rest, beforeEnd_drop within, List.length_drop] at left
  change cursor.position + count ≤ (beforeEnd cursor.tokens).length
  omega

theorem Inside.advance (inside : Inside tokens cursor) : Inside tokens cursor.advance.2 := by
  rw [Cursor.advance]
  cases ended : cursor.atEnd with
  | true => exact inside
  | false =>
    have notEnded : beforeEnd cursor.rest ≠ [] := by
      intro nothing
      rw [(atEnd_iff cursor).mpr nothing] at ended
      cases ended
    exact inside.skip (List.length_pos_iff.mpr notEnded)

theorem Inside.advanceBy (inside : Inside tokens cursor) (count : Nat) :
    Inside tokens (cursor.advanceBy count) := by
  induction count generalizing cursor with
  | zero => exact inside
  | succ count inductionHypothesis => exact inductionHypothesis inside.advance

/-- The tokens of a run of numbers are all before the end. -/
theorem furtherNumbers_within (tokens : List Token) :
    (furtherNumbers tokens).2 ≤ (beforeEnd tokens).length := by
  obtain ⟨further, stopped, rfl, grammatical, stuck⟩ := furtherNumbers_run tokens
  have real : ∀ token ∈ further.flatMap Further.items, (token.kind != .endOfInput) = true := by
    intro token member
    obtain ⟨part, partMember, itemMember⟩ := List.mem_flatMap.mp member
    exact bne_iff_ne.mpr (Further.kind_ne_end (grammatical part partMember) token itemMember)
  rw [furtherNumbers_append grammatical stuck, beforeEnd, List.takeWhile_append_of_pos real,
    List.length_append]
  exact Nat.le_add_right _ _

theorem Inside.numbers (inside : Inside tokens cursor) : Inside tokens cursor.numbers.2 := by
  rw [Cursor.numbers]
  by_cases isComma : (cursor.peek 0).kind = .comma
  · by_cases isNumber : (cursor.peek 1).kind = .number
    · simpa [isComma, isNumber] using inside
    · simpa [isComma, isNumber] using inside
  · by_cases isNumber : (cursor.peek 0).kind = .number
    · have taken : 1 + (furtherNumbers (cursor.tokens.drop (cursor.position + 1))).2 ≤
          (beforeEnd cursor.rest).length := by
        cases left : cursor.rest with
        | nil =>
          rw [peek_eq, left] at isNumber
          cases isNumber
        | cons first later =>
          rw [peek_eq, left] at isNumber
          have firstNumber : first.kind = .number := isNumber
          have behind : cursor.tokens.drop (cursor.position + 1) = later := by
            rw [← List.drop_drop, ← rest, left]
            rfl
          have within := furtherNumbers_within later
          rw [behind, beforeEnd, List.takeWhile_cons_of_pos (by simp [firstNumber]),
            List.length_cons, ← beforeEnd]
          omega
      have skipped := inside.skip taken
      simpa [isNumber, Cursor.skip, Nat.add_assoc] using skipped
    · simpa [isComma, isNumber] using inside

theorem Inside.boundAmong (inside : Inside tokens cursor) (kinds : List TokenKind) :
    Inside tokens (cursor.boundAmong kinds).2 := by
  rw [boundAmong_eq]
  split
  · exact inside.advance.advance
  · exact inside

theorem Inside.finish (inside : Inside tokens cursor) (terms : List Token)
    (continuation : Option Continuation) :
    Inside tokens (cursor.finish terms continuation).2 := by
  rw [Cursor.finish]
  split
  · exact inside
  · exact inside

theorem Inside.parseAmong (inside : Inside tokens cursor) (kinds : List TokenKind) :
    Inside tokens (cursor.parseAmong kinds).2 := by
  have restarted : Inside tokens (ofTokens cursor.tokens).numbers.2 := by
    rw [inside.sameTokens]
    exact (inside_ofTokens tokens).numbers
  rw [Cursor.parseAmong]
  rcases numbered : (ofTokens cursor.tokens).numbers with ⟨cause | terms, after⟩
  · rw [numbered] at restarted
    exact restarted
  · rw [numbered] at restarted
    dsimp only
    split
    · split
      · exact restarted
      · exact ((restarted.advanceBy 2).boundAmong kinds).finish _ _
    · exact restarted.finish _ _

/-- No operation gets behind the first end. -/
theorem Inside.perform (inside : Inside tokens cursor) (kinds : List TokenKind)
    (operation : Operation) : Inside tokens (cursor.perform kinds operation).2 := by
  cases operation with
  | glance ahead => exact inside
  | check kind => exact inside
  | checkSeparated kind => exact inside
  | atEnd => exact inside
  | advance => exact inside.advance
  | advanceBy count => exact inside.advanceBy count.toNat
  | numbers => exact inside.numbers
  | bound => exact inside.boundAmong kinds
  | parse => exact inside.parseAmong kinds

theorem Inside.performAll (inside : Inside tokens cursor) (kinds : List TokenKind)
    (operations : List Operation) :
    ∀ visit ∈ cursor.performAll kinds operations, Inside tokens visit.2 := by
  induction operations generalizing cursor with
  | nil =>
    intro visit member
    contradiction
  | cons operation later inductionHypothesis =>
    have moved := inside.perform kinds operation
    intro visit member
    rcases List.mem_cons.mp member with rfl | member
    · exact moved
    · exact inductionHypothesis moved visit member

end Cursor

/-! ## Without the end -/

section Ends

variable {source : String} {tokens front : List Token}

theorem partition_of_tokenize (read : tokenize source = .ok tokens) :
    Token.Partition source tokens := by
  by_cases within : Lexeme.IntegersWithin digitLimit source.toList
  · rw [Token.tokenize_eq within] at read
    cases read
    exact Token.partition_ofWords within
  · obtain ⟨word, -, -, failed⟩ := Token.tokenize_error within
    rw [failed] at read
    cases read

/-- The tokens are of one source, whose end is known also where no token stands for it. -/
structure SameSource (source : String) (front : List Token) : Prop where
  without : (Cursor.ofTokens front).source = source
  whole : (Cursor.ofTokens (front ++ [Token.atEnd source source.length])).source = source

theorem sameSource_of_tokenize (read : tokenize source = .ok tokens) :
    tokens = tokens.dropLast ++ [Token.atEnd source source.length] ∧
      SameSource source tokens.dropLast := by
  obtain ⟨whole, located, -, ⟨front, rfl, -⟩, -, -⟩ := partition_of_tokenize read
  rw [List.dropLast_concat]
  refine ⟨rfl, ?_⟩
  cases front with
  | nil =>
    -- Only the empty text has no token but the end.
    have empty : source = "" := by
      apply String.toList_inj.mp
      rw [← whole]
      rfl
    subst empty
    exact ⟨rfl, rfl⟩
  | cons first later =>
    have place := located [] first _ rfl
    have firstSource : first.location.source = source := by rw [place]
    exact ⟨firstSource, firstSource⟩

theorem ofTokens_headless {tokens : List Token}
    (headless : ∀ first later, tokens = first :: later → first.kind ≠ .number) :
    Specification.ofTokens tokens =
      .error (if [.comma, .number] <+: tokens.map Token.kind
        then .leadingComma ((Cursor.ofTokens tokens).peek 0)
        else .noNumbers ((Cursor.ofTokens tokens).peek 0)) :=
  Cursor.parseAmong_headless headless 0

theorem peek_dropEnd (sameSource : SameSource source front) :
    (Cursor.ofTokens (front ++ [Token.atEnd source source.length])).peek 0 =
      (Cursor.ofTokens front).peek 0 := by
  rw [Cursor.peek, Cursor.peek, sameSource.without, sameSource.whole]
  cases front with
  | nil => rfl
  | cons first later => rfl

theorem beforeEnd_dropEnd {later : List Token} (ended : beforeEnd later = []) (source : String) :
    beforeEnd (later ++ [Token.atEnd source source.length]) = [] := by
  cases later with
  | nil => rfl
  | cons token others =>
    have isEnd : token.kind = .endOfInput := by
      apply Decidable.byContradiction
      intro real
      simp [beforeEnd, real] at ended
    simp [beforeEnd, isEnd]

/-- A last end token can be left out: parsing comes to the same specification or the same error. -/
theorem ofTokens_dropEnd (sameSource : SameSource source front) :
    Specification.ofTokens (front ++ [Token.atEnd source source.length]) =
      Specification.ofTokens front := by
  rcases Cursor.exists_longest_phrase front with headless |
    ⟨phrase, later, rfl, grammatical, blocked | ⟨noEnding, few, ellipsisNext⟩⟩
  · have headlessWhole : ∀ first later,
        front ++ [Token.atEnd source source.length] = first :: later → first.kind ≠ .number := by
      intro first later shape
      cases front with
      | nil =>
        obtain ⟨rfl, -⟩ := List.cons.inj shape
        simp [Token.atEnd]
      | cons token others =>
        obtain ⟨rfl, -⟩ := List.cons.inj shape
        exact headless token others rfl
    have kinds : (front ++ [Token.atEnd source source.length]).map Token.kind =
        front.map Token.kind ++ [.endOfInput] := List.map_append
    have real : TokenKind.endOfInput ∉ [.comma, .number] := by simp
    rw [ofTokens_headless headless, ofTokens_headless headlessWhole, peek_dropEnd sameSource,
      kinds]
    simp only [prefix_append_end_iff real]
  · have shape : phrase.items ++ later ++ [Token.atEnd source source.length] =
        phrase.items ++ (later ++ [Token.atEnd source source.length]) := List.append_assoc _ _ _
    have blockedWhole : ¬ phrase.Continues
        ((later ++ [Token.atEnd source source.length]).map Token.kind) := by
      rw [List.map_append]
      exact fun continues => blocked ((phrase.continues_append_end _).mp continues)
    have left := Specification.rest_behind_phrase (Eq.refl (phrase.items ++ later))
    have leftWhole := Specification.rest_behind_phrase shape
    rw [Specification.ofTokens_phrase rfl grammatical blocked,
      Specification.ofTokens_phrase shape grammatical blockedWhole]
    by_cases ended : beforeEnd later = []
    · have endedWhole := beforeEnd_dropEnd ended source
      rw [← leftWhole] at endedWhole
      rw [← left] at ended
      rw [Cursor.finish_of_ended ended, Cursor.finish_of_ended endedWhole]
      simp only [Cursor.source_skip, sameSource.without, sameSource.whole]
    · cases later with
      | nil => exact absurd rfl ended
      | cons token others =>
        have real : token.kind ≠ .endOfInput := by
          intro isEnd
          simp [beforeEnd, isEnd] at ended
        rw [Cursor.finish_of_real left real, Cursor.finish_of_real leftWhole real]
  · obtain ⟨comma, ellipsis, others, rfl, isComma, isEllipsis⟩ :=
      pair_prefix_map_iff.mp ellipsisNext
    have shape : phrase.items ++ comma :: ellipsis :: others ++
          [Token.atEnd source source.length] =
        phrase.items ++ comma :: ellipsis :: (others ++ [Token.atEnd source source.length]) :=
      List.append_assoc _ _ _
    have parsed : Specification.ofTokens (phrase.items ++ comma :: ellipsis :: others) =
        .error (.fewNumbers ellipsis phrase.numbers.length) :=
      Cursor.parseAmong_few rfl grammatical noEnding few isComma isEllipsis 0
    rw [parsed]
    exact Cursor.parseAmong_few shape grammatical noEnding few isComma isEllipsis 0

end Ends

namespace Cursor

/-- Parsing takes the tokens before the first end as a whole when they are a grammatical phrase. -/
theorem parse_of_phrase {tokens : List Token} {phrase : Phrase Token}
    (grammatical : phrase.Grammatical Token.kind) (shape : beforeEnd tokens = phrase.items)
    (position : Nat) :
    parse ⟨tokens, position⟩ =
      (.ok (phrase.specification (ofTokens tokens).source), ⟨tokens, phrase.items.length⟩) := by
  have split : tokens = phrase.items ++ tokens.dropWhile (·.kind != .endOfInput) := by
    rw [← shape, beforeEnd, List.takeWhile_append_dropWhile]
  have ended := beforeEnd_dropWhile tokens
  have left := Specification.rest_behind_phrase split
  rw [parse, parseAmong_phrase (fun _ => Iff.rfl) split grammatical
    (not_continues_of_ended ended phrase), finish_of_ended (by rw [left]; exact ended)]
  simp [skip, ofTokens, Phrase.specification, source]

theorem boundToken_specification (phrase : Phrase Token) (source : String) :
    (phrase.specification source).continuation.bind (·.bound) = phrase.bound := by
  obtain ⟨first, further, ending⟩ := phrase
  cases ending with
  | none => rfl
  | some ending =>
    obtain ⟨comma, ellipsis, limit⟩ := ending
    cases limit <;> rfl

/-- Over any tokens, parsing accepts exactly those whose kinds before the first end are a
grammatical phrase, takes them all, and keeps the tokens of its numbers and of its bound, whatever
they carry; its numbers and its bound are what these stand for, if they stand for anything.  The end
token of a text can be left out.  And operations in any order stay inside the tokens before the
first end and give the same in whichever order the kinds of bounds are tried. -/
theorem operations_on_any_tokens (tokens : List Token) (position : Nat) :
    ((∃ specification, (parse ⟨tokens, position⟩).1 = .ok specification) ↔
      ∃ phrase : Phrase TokenKind, phrase.Grammatical id ∧
        (beforeEnd tokens).map Token.kind = phrase.items) ∧
    (∀ phrase : Phrase Token, phrase.Grammatical Token.kind → beforeEnd tokens = phrase.items →
      ∃ specification, parse ⟨tokens, position⟩ =
          (.ok specification, ⟨tokens, (beforeEnd tokens).length⟩) ∧
        specification.source = (ofTokens tokens).source ∧
        specification.hasEllipsis = phrase.ending.isSome ∧
        specification.terms = phrase.numbers ∧
        specification.numbers = phrase.numbers.filterMap (·.value) ∧
        specification.continuation.bind (·.bound) = phrase.bound ∧
        specification.bound = phrase.bound.bind (·.value)) ∧
    (∀ source, tokenize source = .ok tokens →
      (parse ⟨tokens.dropLast, position⟩).1 = (parse ⟨tokens, position⟩).1) ∧
    ∀ kinds : List TokenKind, kinds.Perm boundKinds → ∀ operations : List Operation,
      (ofTokens tokens).performAll kinds operations =
          (ofTokens tokens).performAll boundKinds operations ∧
        ∀ visit ∈ (ofTokens tokens).performAll kinds operations,
          visit.2.tokens = tokens ∧ visit.2.position ≤ (beforeEnd tokens).length := by
  refine ⟨⟨?_, ?_⟩, ?_, ?_, ?_⟩
  · rintro ⟨specification, success⟩
    obtain ⟨phrase, grammatical, shape, -⟩ :=
      (Specification.ofTokens_eq_ok_iff tokens specification).mp success
    refine
      ⟨phrase.map Token.kind, (Phrase.grammatical_map Token.kind id phrase).mpr grammatical, ?_⟩
    rw [shape, Phrase.items_map]
  · rintro ⟨kinds, grammatical, shape⟩
    obtain ⟨phrase, items, rfl⟩ := Phrase.exists_of_map shape
    have ofTokens := (Phrase.grammatical_map Token.kind id phrase).mp grammatical
    rw [parse_of_phrase ofTokens items.symm position]
    exact ⟨_, rfl⟩
  · intro phrase grammatical shape
    refine ⟨_, ?_, rfl, ?_, rfl, rfl, boundToken_specification phrase _,
      Specification.bound_specification phrase _⟩
    · rw [shape]
      exact parse_of_phrase grammatical shape position
    · exact Option.isSome_map
  · intro source read
    obtain ⟨split, sameSource⟩ := sameSource_of_tokenize read
    have same := ofTokens_dropEnd sameSource
    rw [← split] at same
    exact same.symm
  · intro kinds sameKinds operations
    refine ⟨performAll_perm sameKinds _ operations, ?_⟩
    intro visit member
    have inside := (inside_ofTokens tokens).performAll kinds operations visit member
    exact ⟨inside.sameTokens, inside.within⟩

end Cursor

end Progressions
