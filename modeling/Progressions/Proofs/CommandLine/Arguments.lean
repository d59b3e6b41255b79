import Mathlib.Data.List.TakeWhile
import Progressions.CommandLine.Run
import Progressions.Proofs.Lexeme.Numeral
import Progressions.Proofs.Number.Printing

/-!
# Options with attached values

An argument that is the spelling of an option, an equals sign and a text is that option with that
text, whatever the text looks like.  So a limit and a separator reach the settings, but for a
separator that is spelled like the terminator: it is taken for one, and nothing is left.

The text of an integer is read as that integer.
-/

set_option autoImplicit false

namespace Progressions

namespace Text

/-! ## Integers -/

theorem digitValue?_of_isDigit {character : Char} (digit : character.isDigit = true) :
    digitValue? character = some (character.toNat - '0'.toNat) := by
  obtain ⟨low, high⟩ := Lexeme.digit_bounds digit
  have rows : digitZeros = 0x30 :: digitZeros.tail := rfl
  have inFirstRow : (0x30 ≤ character.toNat && character.toNat < 0x30 + 10) = true := by
    rw [Bool.and_eq_true, decide_eq_true_eq, decide_eq_true_eq]
    omega
  have found : digitZeros.find?
      (fun first => first ≤ character.toNat && character.toNat < first + 10) = some 0x30 := by
    rw [rows]
    exact List.find?_cons_of_pos inFirstRow
  rw [digitValue?, found]
  rfl

theorem digitValues?_digits {digits : List Char} (nonempty : digits ≠ [])
    (isDigit : ∀ character ∈ digits, character.isDigit = true) :
    digitValues? digits = some (digits.map fun digit => digit.toNat - '0'.toNat) := by
  induction digits with
  | nil => exact absurd rfl nonempty
  | cons digit digits inductionHypothesis =>
    have first := digitValue?_of_isDigit (isDigit digit List.mem_cons_self)
    cases digits with
    | nil =>
      rw [digitValues?, first]
      rfl
    | cons next others =>
      have later := inductionHypothesis (List.cons_ne_nil _ _) fun character member =>
        isDigit character (List.mem_cons_of_mem _ member)
      have noUnderscore : next ≠ '_' := by
        rintro rfl
        exact absurd (isDigit '_' (by simp)) (by decide)
      rw [digitValues?, first, later]
      · rfl
      · exact noUnderscore

theorem ofDigitValues_digits (digits : List Char) :
    ofDigitValues (digits.map fun digit => digit.toNat - '0'.toNat) =
      Nat.ofDigitChars 10 digits 0 := by
  rw [ofDigitValues, List.foldl_map]
  rfl

theorem trimMargins_of_noMargins {text : List Char}
    (noMargins : ∀ character ∈ text, isMargin character = false) : trimMargins text = text := by
  have stops {characters : List Char} (inside : ∀ character ∈ characters, character ∈ text) :
      Lexeme.Stops isMargin characters := fun character head =>
    noMargins character (inside character (List.mem_of_head? head))
  rw [trimMargins, Lexeme.dropWhile_of_stops (stops fun _ member => member),
    Lexeme.dropWhile_of_stops (stops fun _ member => List.mem_reverse.mp member),
    List.reverse_reverse]

theorem isMargin_of_isDigit {character : Char} (digit : character.isDigit = true) :
    isMargin character = false := by
  rw [isMargin, Lexeme.isBlank_of_isDigit digit, Bool.false_and]

section Digits

variable {run : DigitRun} {text : String} (short : run.text.length ≤ digitLimit)

include short

theorem integer?_digits (isText : text.toList = run.text) :
    integer? text = some (Nat.ofDigitChars 10 run.text 0 : Nat) := by
  have trimmed : trimMargins text.toList = run.text := by
    rw [isText]
    exact trimMargins_of_noMargins fun character member =>
      isMargin_of_isDigit (run.digits character member)
  have values := digitValues?_digits run.nonempty run.digits
  have few : ¬ digitLimit < (run.text.map fun digit => digit.toNat - '0'.toNat).length := by
    rw [List.length_map]
    exact Nat.not_lt.mpr short
  have notSigned {sign : Char} (isSign : sign.isDigit = false) (rest : List Char) :
      run.text ≠ sign :: rest := by
    intro signed
    have digit := run.digits sign (signed ▸ List.mem_cons_self)
    rw [isSign] at digit
    cases digit
  rw [integer?, trimmed]
  simp only [Option.bind_eq_bind]
  split
  · next negative => exact absurd negative (notSigned (by decide) _)
  · next positive => exact absurd positive (notSigned (by decide) _)
  · rw [values, Option.bind_some, if_neg few, ofDigitValues_digits]
    rfl

theorem integer?_minus (isText : text.toList = '-' :: run.text) :
    integer? text = some (-((Nat.ofDigitChars 10 run.text 0 : Nat) : Int)) := by
  have trimmed : trimMargins text.toList = '-' :: run.text := by
    rw [isText]
    refine trimMargins_of_noMargins fun character member => ?_
    rcases List.mem_cons.mp member with rfl | inRun
    · decide
    · exact isMargin_of_isDigit (run.digits character inRun)
  have values := digitValues?_digits run.nonempty run.digits
  have few : ¬ digitLimit < (run.text.map fun digit => digit.toNat - '0'.toNat).length := by
    rw [List.length_map]
    exact Nat.not_lt.mpr short
  rw [integer?, trimmed]
  simp only [Option.bind_eq_bind, values, Option.bind_some, if_neg few, ofDigitValues_digits]
  rfl

end Digits

/-- The text of an integer within the digit limit is read as the integer. -/
theorem integer?_toString {value : Int} (writable : (Number.int value).writable = true) :
    integer? (toString value) = some value := by
  have short := Numeral.length_whole_of_writable writable
  have isText := (Numeral.text_ofInt value).symm
  have magnitude := DigitRun.ofDigitChars_ofNat value.natAbs
  cases value with
  | ofNat size =>
    rw [integer?_digits short (isText.trans (List.append_nil _))]
    exact congrArg (some ∘ Int.ofNat) magnitude
  | negSucc less =>
    rw [integer?_minus short (isText.trans (List.append_nil _))]
    exact congrArg (fun size : Nat => some (-(size : Int))) magnitude

end Text

namespace CommandLine

/-! ## Words -/

/-- An option whose value stands behind an equals sign. -/
def attached (spelling value : String) : String := spelling ++ "=" ++ value

section Attached

variable {spelling : String} {switch : Switch}

theorem splitEquals_attached (noEquals : '=' ∉ spelling.toList) (value : String) :
    splitEquals (attached spelling value).toList = (spelling.toList, some value.toList) := by
  have inside : ∀ character ∈ spelling.toList, (character != '=') = true := by
    intro character member
    exact bne_iff_ne.mpr fun isEquals => noEquals (isEquals ▸ member)
  have isText : (attached spelling value).toList = spelling.toList ++ '=' :: value.toList := by
    simp [attached]
  have stops : Lexeme.Stops (· != '=') ('=' :: value.toList) :=
    Lexeme.stops_cons _ (by decide)
  rw [splitEquals, isText, Lexeme.dropWhile_append_of_stops inside stops,
    Lexeme.takeWhile_append_of_stops inside stops]

/-- No spelling of an option has an equals sign in it. -/
theorem ofSpelling?_of_mem {text : List Char} (equals : '=' ∈ text) :
    Switch.ofSpelling? text = none := by
  have table : ∀ entry ∈ Switch.table, '=' ∉ entry.1 := by decide +kernel
  rw [Switch.ofSpelling?, List.lookup_eq_none_iff]
  intro entry member
  rw [bne_iff_ne]
  rintro rfl
  exact table entry member equals

theorem word_attached (spelled : Switch.ofSpelling? spelling.toList = some switch)
    (hyphen : spelling.toList.head? = some '-') (noEquals : '=' ∉ spelling.toList)
    (value : String) :
    word (attached spelling value) =
      .ok (.option switch (isShort spelling.toList) (some value.toList)) := by
  have isText : (attached spelling value).toList = spelling.toList ++ '=' :: value.toList := by
    simp [attached]
  have equals : '=' ∈ (attached spelling value).toList := by simp [isText]
  have isOption : ¬ ((attached spelling value).toList.head? ≠ some '-' ∨
      (attached spelling value).toList = ['-']) := by
    rintro (other | alone)
    · exact other (by simp [isText, List.head?_append, hyphen])
    · rw [alone] at equals
      exact absurd equals (by decide)
  rw [word]
  simp only [if_neg isOption, ofSpelling?_of_mem equals, splitEquals_attached noEquals, spelled]

theorem attached_ne_terminator (value : String) : attached spelling value ≠ terminator := by
  intro same
  have equals : '=' ∈ (attached spelling value).toList := by simp [attached]
  rw [same] at equals
  exact absurd equals (by decide +kernel)

end Attached

/-! ## Invocations -/

theorem word_limit (value : String) :
    word (attached "--limit" value) = .ok (.option .limit false (some value.toList)) :=
  word_attached (by decide +kernel) (by decide +kernel) (by decide +kernel) value

theorem word_separator (value : String) :
    word (attached "--separator" value) = .ok (.option .separator false (some value.toList)) :=
  word_attached (by decide +kernel) (by decide +kernel) (by decide +kernel) value

/-- The text of a separator; one that is spelled like the terminator is lost. -/
def separatorOf (value : String) : Option String := if value = terminator then none else some value

theorem assign_limit (taken : Taken) {limit : Int}
    (writable : (Number.int limit).writable = true) :
    taken.assign .limit (toString limit) =
      .ok { taken with settings := { taken.settings with limit := some limit } } := by
  have isInteger := Text.integer?_toString writable
  have notTerminator : toString limit ≠ terminator := by
    intro same
    have noInteger : Text.integer? terminator = none := by decide +kernel
    rw [same, noInteger] at isInteger
    cases isInteger
  rw [Taken.assign]
  simp only [if_neg notTerminator, Option.map_some, isInteger, Option.join_some]

theorem assign_separator (taken : Taken) (value : String) :
    taken.assign .separator value =
      .ok { taken with settings := { taken.settings with separator := separatorOf value } } := rfl

theorem words_cons {argument : String} {first : Word} {rest : List String} {others : List Word}
    (notTerminator : argument ≠ terminator) (isFirst : word argument = .ok first)
    (later : words rest = .ok others) : words (argument :: rest) = .ok (first :: others) := by
  rw [words, if_neg notTerminator, isFirst, later]
  rfl

theorem words_terminated (source : String) :
    words ["--", source] = .ok [.terminator, .operand source] := rfl

theorem take_attached {taken after : Taken} {switch : Switch} {value : String} (short : Bool)
    (rest : List Word) (takesValue : switch.takesValue = true)
    (assigned : taken.assign switch value = .ok after) :
    taken.take (.option switch short (some value.toList) :: rest) = after.take rest := by
  rw [Taken.take, String.ofList_toList, assigned]
  · rfl
  · exact takesValue

/-- Behind the terminator the specification is taken as it is. -/
theorem ofArguments_of_words {arguments : List String} {settings : Settings} {source : String}
    (options : List Word)
    (isWords : words arguments = .ok (options ++ [.terminator, .operand source]))
    (taken : Taken.start.take (options ++ [.terminator, .operand source]) =
      Taken.take ⟨none, settings, []⟩ [.terminator, .operand source]) :
    Invocation.ofArguments arguments = .run source settings := by
  rw [Invocation.ofArguments, isWords]
  dsimp only
  rw [taken]
  rfl

section Invocations

variable {limit : Int} (writable : (Number.int limit).writable = true) (source : String)

include writable

theorem ofArguments_limit :
    Invocation.ofArguments [attached "--limit" (toString limit), "--", source] =
      .run source ⟨false, some limit, some "\n", false⟩ := by
  have isWords := words_cons (attached_ne_terminator (toString limit))
    (word_limit (toString limit)) (words_terminated source)
  exact ofArguments_of_words [_] isWords
    (take_attached false _ rfl (assign_limit .start writable))

theorem ofArguments_limit_separator (separator : String) :
    Invocation.ofArguments [attached "--limit" (toString limit),
        attached "--separator" separator, "--", source] =
      .run source ⟨false, some limit, separatorOf separator, false⟩ := by
  have isWords := words_cons (attached_ne_terminator (toString limit))
    (word_limit (toString limit)) (words_cons (attached_ne_terminator separator)
      (word_separator separator) (words_terminated source))
  refine ofArguments_of_words [_, _] isWords ?_
  have limited := take_attached false
    [.option .separator false (some separator.toList), .terminator, .operand source] rfl
    (assign_limit .start writable)
  exact limited.trans (take_attached false _ rfl (assign_separator _ separator))

end Invocations

end CommandLine

end Progressions
