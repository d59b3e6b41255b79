import Progressions.Proofs.Token.Partition

/-!
# Sources that are split where a token starts

A token depends on nothing to its left, and on what follows it only by a boundary.  So the text in
front of a token has the tokens in front of it, and the text from there on has all the others, moved
to the front of their new source.
-/

set_option autoImplicit false

namespace Progressions

namespace Token

/-- The token in another source, nearer to its start by the shift. -/
def moved (source : String) (shift : Nat) (token : Token) : Token :=
  { token with
    location := ⟨source, token.location.column - shift, token.location.offset - shift⟩ }

/-- The tokens of words that stand in the source from the offset on, without the end. -/
def located (source : String) : Nat → List Word → List Token
  | _, [] => []
  | offset, word :: later =>
    ⟨word.kind, String.ofList word.text, word.number, .ofOffset source offset⟩ ::
      located source (offset + word.text.length) later

theorem ofWords_append_eq (source : String) (offset : Nat) (before after : List Word) :
    ofWords source offset (before ++ after) =
      located source offset before ++
        ofWords source (offset + (Lexeme.written before).length) after := by
  induction before generalizing offset with
  | nil => rfl
  | cons word before inductionHypothesis =>
    rw [List.cons_append, ofWords, inductionHypothesis, located, Lexeme.written_cons,
      List.length_append, Nat.add_assoc, List.cons_append]

theorem ofWords_eq_located (source : String) (offset : Nat) (words : List Word) :
    ofWords source offset words =
      located source offset words ++
        [atEnd source (offset + (Lexeme.written words).length : Nat)] := by
  have split := ofWords_append_eq source offset words []
  rwa [List.append_nil] at split

/-! ## Where the tokens stand -/

theorem offset_lt_of_mem_located (source : String) (offset : Nat) {words : List Word}
    (nonempty : ∀ word ∈ words, word.text ≠ []) :
    ∀ token ∈ located source offset words,
      token.location.offset < (offset + (Lexeme.written words).length : Nat) := by
  induction words generalizing offset with
  | nil => simp [located]
  | cons word words inductionHypothesis =>
    intro token member
    have taken := List.length_pos_iff.mpr (nonempty word List.mem_cons_self)
    rw [Lexeme.written_cons, List.length_append]
    rcases List.mem_cons.mp member with rfl | member
    · dsimp only [Location.ofOffset]
      omega
    · have later := inductionHypothesis (offset + word.text.length)
        (fun other listed => nonempty other (List.mem_cons_of_mem word listed)) token member
      rwa [Nat.add_assoc] at later

theorem le_offset_of_mem_ofWords (source : String) (offset : Nat) (words : List Word) :
    ∀ token ∈ ofWords source offset words, (offset : Int) ≤ token.location.offset := by
  induction words generalizing offset with
  | nil =>
    intro token member
    obtain rfl := List.mem_singleton.mp member
    exact Int.le_refl _
  | cons word words inductionHypothesis =>
    intro token member
    rcases List.mem_cons.mp member with rfl | member
    · exact Int.le_refl _
    · have later := inductionHypothesis (offset + word.text.length) token member
      push_cast at later
      omega

theorem moved_ofOffset (source other : String) (kind : TokenKind) (lexeme : String)
    (value : Option Number) (shift offset : Nat) :
    moved other shift ⟨kind, lexeme, value, .ofOffset source (shift + offset : Nat)⟩ =
      ⟨kind, lexeme, value, .ofOffset other offset⟩ := by
  simp only [moved, Location.ofOffset, Token.mk.injEq, Location.mk.injEq, true_and]
  push_cast
  omega

theorem map_moved_located (source other : String) (shift offset : Nat) (words : List Word) :
    (located source (shift + offset) words).map (moved other shift) =
      located other offset words := by
  induction words generalizing offset with
  | nil => rfl
  | cons word words inductionHypothesis =>
    rw [located, List.map_cons, moved_ofOffset, Nat.add_assoc, inductionHypothesis, located]

theorem map_moved_ofWords (source other : String) (shift offset : Nat) (words : List Word) :
    (ofWords source (shift + offset) words).map (moved other shift) =
      ofWords other offset words := by
  rw [ofWords_eq_located, ofWords_eq_located, List.map_append, map_moved_located,
    List.map_singleton, Nat.add_assoc, atEnd, moved_ofOffset, atEnd]

theorem exists_words_of_offset {source : String} {words : List Word} {token : Token} {offset : Nat}
    (member : token ∈ ofWords source 0 words) (place : token.location.offset = offset) :
    ∃ before after, words = before ++ after ∧ offset = (Lexeme.written before).length := by
  obtain ⟨front, back, split⟩ := List.append_of_mem member
  obtain ⟨before, after, shape, -, tokens⟩ := exists_words_of_split split
  refine ⟨before, after, shape, ?_⟩
  have isPlace : token.location.offset = (0 + (Lexeme.written before).length : Nat) := by
    cases after with
    | nil =>
      obtain ⟨rfl, -⟩ := List.cons.inj tokens
      rfl
    | cons word later =>
      obtain ⟨rfl, -⟩ := List.cons.inj tokens
      rfl
  rw [place, Nat.zero_add] at isPlace
  exact Int.ofNat.inj isPlace

/-- The place between two words divides the tokens. -/
theorem filter_offset (source : String) {before after : List Word}
    (nonempty : ∀ word ∈ before ++ after, word.text ≠ []) :
    (ofWords source 0 (before ++ after)).filter
          (·.location.offset < ((Lexeme.written before).length : Int)) =
        located source 0 before ∧
      (ofWords source 0 (before ++ after)).filter
          (((Lexeme.written before).length : Int) ≤ ·.location.offset) =
        ofWords source (Lexeme.written before).length after := by
  have earlier := offset_lt_of_mem_located source 0
    fun word member => nonempty word (List.mem_append_left after member)
  have later := le_offset_of_mem_ofWords source (Lexeme.written before).length after
  rw [Nat.zero_add] at earlier
  rw [ofWords_append_eq, Nat.zero_add, List.filter_append, List.filter_append]
  constructor
  · rw [List.filter_eq_self.mpr, List.filter_eq_nil_iff.mpr, List.append_nil]
    · intro token member
      simpa using later token member
    · intro token member
      simpa using earlier token member
  · rw [List.filter_eq_nil_iff.mpr, List.filter_eq_self.mpr, List.nil_append]
    · intro token member
      simpa using later token member
    · intro token member
      simpa using earlier token member

/-! ## Reading the parts -/

section Parts

variable {source : String} {before after : List Word}
  (within : Lexeme.IntegersWithin digitLimit source.toList)
  (shape : Lexeme.words source.toList = before ++ after)

include within shape

theorem tokenize_before (front : String) (isFront : front.toList = Lexeme.written before) :
    tokenize front = .ok (ofWords front 0 before) := by
  have words := Lexeme.words_written shape
  have frontWithin : Lexeme.IntegersWithin digitLimit front.toList := by
    rw [Lexeme.IntegersWithin, isFront, words]
    intro word member
    exact within word (by rw [shape]; exact List.mem_append_left _ member)
  rw [tokenize_eq frontWithin, isFront, words]

theorem tokenize_after (rest : String) (isRest : rest.toList = Lexeme.written after) :
    tokenize rest = .ok (ofWords rest 0 after) := by
  have words := Lexeme.words_append shape
  have restWithin : Lexeme.IntegersWithin digitLimit rest.toList := by
    rw [Lexeme.IntegersWithin, isRest, words]
    intro word member
    exact within word (by rw [shape]; exact List.mem_append_right _ member)
  rw [tokenize_eq restWithin, isRest, words]

end Parts

end Token

/-- Where a token of the source starts, the source can be split: the text in front of that place is
read as the tokens in front of it and an end, and the text from there on as all other tokens, with
their places counted from there. -/
theorem tokenize_splits {source : String} {tokens : List Token} {offset : Nat}
    (read : tokenize source = .ok tokens)
    (starts : ∃ token ∈ tokens, token.location.offset = offset) :
    let front := String.ofList (source.toList.take offset)
    let rest := String.ofList (source.toList.drop offset)
    tokenize front =
        .ok ((tokens.filter (·.location.offset < (offset : Int))).map (Token.moved front 0) ++
          [Token.atEnd front offset]) ∧
      tokenize rest =
        .ok ((tokens.filter ((offset : Int) ≤ ·.location.offset)).map
          (Token.moved rest offset)) := by
  intro front rest
  have within : Lexeme.IntegersWithin digitLimit source.toList := by
    by_contra beyond
    obtain ⟨word, -, -, failed⟩ := Token.tokenize_error beyond
    rw [failed] at read
    cases read
  obtain rfl := Except.ok.inj ((Token.tokenize_eq within).symm.trans read)
  obtain ⟨token, member, place⟩ := starts
  obtain ⟨before, after, shape, isOffset⟩ := Token.exists_words_of_offset member place
  have written := Lexeme.written_words source.toList
  rw [shape, Lexeme.written_append] at written
  have isFront : front.toList = Lexeme.written before := by
    rw [String.toList_ofList, ← written, isOffset, List.take_left]
  have isRest : rest.toList = Lexeme.written after := by
    rw [String.toList_ofList, ← written, isOffset, List.drop_left]
  have nonempty : ∀ word ∈ before ++ after, word.text ≠ [] := by
    rw [← shape]
    exact Lexeme.text_ne_nil_of_mem_words
  obtain ⟨earlier, later⟩ := Token.filter_offset source nonempty
  rw [shape, isOffset, earlier, later]
  constructor
  · rw [Token.tokenize_before within shape front isFront, Token.ofWords_eq_located,
      Nat.zero_add]
    have moved := Token.map_moved_located source front 0 0 before
    rw [Nat.add_zero] at moved
    rw [moved]
  · rw [Token.tokenize_after within shape rest isRest]
    exact congrArg Except.ok (Token.map_moved_ofWords source rest _ 0 after).symm

def splitTokens : List Token :=
  [⟨.number, "-1", some (.int (-1)), .ofOffset "-1 , 2.5x" 0⟩,
    ⟨.comma, " , ", none, .ofOffset "-1 , 2.5x" 2⟩,
    ⟨.number, "2.5", some (.float (Binary64.ofDecimal false 25 (-1))), .ofOffset "-1 , 2.5x" 5⟩,
    ⟨.invalid, "x", none, .ofOffset "-1 , 2.5x" 8⟩, .atEnd "-1 , 2.5x" 9]

theorem tokenize_splits_behind_separator :
    tokenize "-1 , 2.5x" = .ok splitTokens ∧
      (∃ token ∈ splitTokens, token.location.offset = (5 : Nat)) ∧
      tokenize "-1 , " = .ok [⟨.number, "-1", some (.int (-1)), .ofOffset "-1 , " 0⟩,
        ⟨.comma, " , ", none, .ofOffset "-1 , " 2⟩, .atEnd "-1 , " 5] ∧
      tokenize "2.5x" =
        .ok [⟨.number, "2.5", some (.float (Binary64.ofDecimal false 25 (-1))), .ofOffset "2.5x" 0⟩,
          ⟨.invalid, "x", none, .ofOffset "2.5x" 3⟩, .atEnd "2.5x" 4] := by
  have read : tokenize "-1 , 2.5x" = .ok splitTokens := by decide +kernel
  have starts : ∃ token ∈ splitTokens, token.location.offset = (5 : Nat) := by decide +kernel
  have isFront : String.ofList ("-1 , 2.5x".toList.take 5) = "-1 , " := by decide +kernel
  have isRest : String.ofList ("-1 , 2.5x".toList.drop 5) = "2.5x" := by decide +kernel
  obtain ⟨front, rest⟩ := tokenize_splits read starts
  rw [isFront] at front
  rw [isRest] at rest
  exact ⟨read, starts, front.trans (by decide +kernel), rest.trans (by decide +kernel)⟩

end Progressions
