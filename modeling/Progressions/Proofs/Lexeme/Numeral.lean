import Mathlib.Data.List.TakeWhile
import Progressions.Token.Lexeme

/-!
# Numerals and separators

The texts of the grammar's words, built from their parts.  A numeral is an optional sign,
digits, and optionally a point and further digits; a separator is a comma between two runs of
blanks; an infinity is `Inf` behind an optional sign.

`number?_eq_some_iff`, `separator?_eq_some_iff`, `ellipsis?_eq_some_iff` and
`infinity?_eq_some_iff` say what each cut takes off a text: a word of its class, followed by a
text that cannot lengthen it.
-/

set_option autoImplicit false

namespace Progressions

/-- A sign in front of a word, which may be left out. -/
inductive Sign where
  | absent
  | plus
  | minus
deriving DecidableEq

namespace Sign

def text : Sign → List Char
  | .absent => []
  | .plus => ['+']
  | .minus => ['-']

/-- The integer a sign and a natural number stand for. -/
def apply : Sign → Nat → Int
  | .minus, value => -(value : Int)
  | _, value => value

end Sign

/-- One or more decimal digits. -/
structure DigitRun where
  text : List Char
  nonempty : text ≠ []
  digits : ∀ character ∈ text, character.isDigit = true

structure Numeral where
  sign : Sign
  whole : DigitRun
  fraction : Option DigitRun

namespace Numeral

def fractionText (numeral : Numeral) : List Char :=
  match numeral.fraction with
  | none => []
  | some places => '.' :: places.text

def text (numeral : Numeral) : List Char :=
  numeral.sign.text ++ numeral.whole.text ++ numeral.fractionText

/-- An integer without a fractional part, the nearest binary64 number with one. -/
def value (numeral : Numeral) : Number :=
  match numeral.fraction with
  | none => .int (numeral.sign.apply (Nat.ofDigitChars 10 numeral.whole.text 0))
  | some places =>
    .float (Binary64.ofDecimal (numeral.sign == .minus)
      (Nat.ofDigitChars 10 (numeral.whole.text ++ places.text) 0) (-(places.text.length : Int)))

end Numeral

/-- A comma with the blanks around it. -/
structure Separator where
  before : List Char
  after : List Char
  blankBefore : ∀ character ∈ before, Text.isBlank character = true
  blankAfter : ∀ character ∈ after, Text.isBlank character = true

def Separator.text (separator : Separator) : List Char :=
  separator.before ++ ',' :: separator.after

def ellipsisText : List Char := ['.', '.', '.']

def infinityText (sign : Sign) : List Char := sign.text ++ ['I', 'n', 'f']

namespace Lexeme

/-! ## Where a run of characters stops -/

/-- The text does not start with a character of the class. -/
def Stops (inClass : Char → Bool) (text : List Char) : Prop :=
  ∀ character, text.head? = some character → inClass character = false

theorem stops_nil (inClass : Char → Bool) : Stops inClass [] := by
  intro character head
  cases head

theorem stops_cons {inClass : Char → Bool} {first : Char} (rest : List Char)
    (outside : inClass first = false) : Stops inClass (first :: rest) := by
  intro character head
  cases head
  exact outside

theorem stops_dropWhile (inClass : Char → Bool) (text : List Char) :
    Stops inClass (text.dropWhile inClass) := by
  intro character head
  have stopped := List.head?_dropWhile_not inClass text
  rw [head] at stopped
  simpa using stopped

theorem takeWhile_of_stops {inClass : Char → Bool} {rest : List Char}
    (stops : Stops inClass rest) : rest.takeWhile inClass = [] := by
  cases rest with
  | nil => rfl
  | cons first others => simp [stops first rfl]

theorem dropWhile_of_stops {inClass : Char → Bool} {rest : List Char}
    (stops : Stops inClass rest) : rest.dropWhile inClass = rest := by
  cases rest with
  | nil => rfl
  | cons first others => simp [stops first rfl]

theorem takeWhile_append_of_stops {inClass : Char → Bool} {run rest : List Char}
    (inside : ∀ character ∈ run, inClass character = true) (stops : Stops inClass rest) :
    (run ++ rest).takeWhile inClass = run := by
  rw [List.takeWhile_append_of_pos inside, takeWhile_of_stops stops, List.append_nil]

theorem dropWhile_append_of_stops {inClass : Char → Bool} {run rest : List Char}
    (inside : ∀ character ∈ run, inClass character = true) (stops : Stops inClass rest) :
    (run ++ rest).dropWhile inClass = rest := by
  rw [List.dropWhile_append_of_pos inside, dropWhile_of_stops stops]

/-! ## Characters that open a word -/

theorem digit_bounds {character : Char} (digit : character.isDigit = true) :
    48 ≤ character.toNat ∧ character.toNat ≤ 57 := by
  rw [Char.isDigit, Bool.and_eq_true, decide_eq_true_eq, decide_eq_true_eq] at digit
  exact ⟨UInt32.le_iff_toNat_le.mp digit.1, UInt32.le_iff_toNat_le.mp digit.2⟩

theorem isBlank_of_isDigit {character : Char} (digit : character.isDigit = true) :
    Text.isBlank character = false := by
  have bounds := digit_bounds digit
  simp only [Text.isBlank, Text.blankRanges, List.any_cons, List.any_nil, Bool.or_false,
    Bool.or_eq_false_iff, Bool.and_eq_false_iff, decide_eq_false_iff_not]
  omega

/-- The character is a sign. -/
def isSign (character : Char) : Bool := character == '+' || character == '-'

/-- The character begins a numeral. -/
def opensNumeral (character : Char) : Bool := isSign character || character.isDigit

/-- The character begins a separator. -/
def opensSeparator (character : Char) : Bool := character == ',' || Text.isBlank character

theorem ne_of_class {inClass : Char → Bool} {left right : Char} (inside : inClass left = true)
    (outside : inClass right = false) : left ≠ right := by
  rintro rfl
  rw [inside] at outside
  contradiction

theorem isSign_of_isDigit {character : Char} (digit : character.isDigit = true) :
    isSign character = false := by
  have plus : character ≠ '+' := ne_of_class digit rfl
  have minus : character ≠ '-' := ne_of_class digit rfl
  simp [isSign, plus, minus]

theorem not_opensSeparator_of_opensNumeral {character : Char}
    (opens : opensNumeral character = true) : opensSeparator character = false := by
  simp only [opensNumeral, isSign, Bool.or_eq_true, beq_iff_eq] at opens
  rcases opens with (rfl | rfl) | digit
  · decide
  · decide
  · have comma : character ≠ ',' := ne_of_class digit rfl
    simp [opensSeparator, comma, isBlank_of_isDigit digit]

/-! ## Signs -/

theorem splitSign_of_stops {text : List Char} (unsigned : Stops isSign text) :
    Number.splitSign text = ([], text) := by
  unfold Number.splitSign
  split
  · have := unsigned '+' rfl
    contradiction
  · have := unsigned '-' rfl
    contradiction
  · rfl

theorem splitSign_text_append (sign : Sign) {body : List Char} (unsigned : Stops isSign body) :
    Number.splitSign (sign.text ++ body) = (sign.text, body) := by
  cases sign with
  | absent => exact splitSign_of_stops unsigned
  | plus => rfl
  | minus => rfl

theorem exists_sign (text : List Char) :
    ∃ (sign : Sign) (body : List Char), Number.splitSign text = (sign.text, body) ∧
      text = sign.text ++ body := by
  unfold Number.splitSign
  split
  · exact ⟨.plus, _, rfl, rfl⟩
  · exact ⟨.minus, _, rfl, rfl⟩
  · exact ⟨.absent, text, rfl, rfl⟩

/-! ## Numerals -/

theorem exists_digit_cons (run : DigitRun) : ∃ first others, run.text = first :: others ∧
    first.isDigit = true ∧ ∀ character ∈ others, character.isDigit = true := by
  obtain ⟨text, nonempty, digits⟩ := run
  cases text with
  | nil => contradiction
  | cons first others =>
    exact ⟨first, others, rfl, digits first List.mem_cons_self,
      fun character member => digits character (List.mem_cons_of_mem first member)⟩

theorem stops_isSign_digits (run : DigitRun) (rest : List Char) :
    Stops isSign (run.text ++ rest) := by
  obtain ⟨first, others, shape, digit, -⟩ := exists_digit_cons run
  rw [shape]
  exact stops_cons _ (isSign_of_isDigit digit)

theorem fraction_point_append (places : DigitRun) {rest : List Char}
    (stops : Stops Char.isDigit rest) :
    fraction ('.' :: places.text ++ rest) = ('.' :: places.text, rest) := by
  obtain ⟨first, others, shape, digit, digits⟩ := exists_digit_cons places
  rw [shape, List.cons_append, List.cons_append]
  simp only [fraction]
  rw [if_pos digit, takeWhile_append_of_stops digits stops, dropWhile_append_of_stops digits stops]

theorem fraction_cases (text : List Char) :
    fraction text = ([], text) ∨
      ∃ (places : DigitRun) (rest : List Char), fraction text = ('.' :: places.text, rest) ∧
        Stops Char.isDigit rest := by
  unfold fraction
  split
  · next digit rest =>
    split
    · next isDigit =>
      refine .inr ⟨⟨digit :: rest.takeWhile Char.isDigit, List.cons_ne_nil _ _, ?_⟩, _, rfl,
        stops_dropWhile _ _⟩
      intro character member
      rcases List.mem_cons.mp member with rfl | member
      · exact isDigit
      · exact List.mem_takeWhile_imp member
    · exact .inl rfl
  · exact .inl rfl

/-- What follows a numeral does not lengthen it. -/
structure Closes (numeral : Numeral) (rest : List Char) : Prop where
  stops : Stops Char.isDigit rest
  noFraction : numeral.fraction = none → fraction rest = ([], rest)

/-- Neither digits nor a point follow, which closes every numeral. -/
theorem closes_of_stops (numeral : Numeral) {rest : List Char}
    (stops : Stops (fun character => character.isDigit || character == '.') rest) :
    Closes numeral rest := by
  refine ⟨?_, ?_⟩
  · intro character head
    exact (Bool.or_eq_false_iff.mp (stops character head)).1
  · intro _
    unfold fraction
    split
    · have := stops '.' rfl
      contradiction
    · rfl

theorem fraction_fractionText_append {numeral : Numeral} {rest : List Char}
    (closes : Closes numeral rest) :
    fraction (numeral.fractionText ++ rest) = (numeral.fractionText, rest) := by
  unfold Numeral.fractionText
  split
  · next none => exact closes.noFraction none
  · next places _ => exact fraction_point_append places closes.stops

theorem stops_isDigit_fractionText {numeral : Numeral} {rest : List Char}
    (closes : Closes numeral rest) : Stops Char.isDigit (numeral.fractionText ++ rest) := by
  unfold Numeral.fractionText
  split
  · exact closes.stops
  · exact stops_cons _ rfl

theorem number?_text_append {numeral : Numeral} {rest : List Char}
    (closes : Closes numeral rest) :
    number? (numeral.text ++ rest) = some (numeral.text, rest) := by
  have stops := stops_isDigit_fractionText closes
  have grouped : numeral.text ++ rest =
      numeral.sign.text ++ (numeral.whole.text ++ (numeral.fractionText ++ rest)) := by
    simp [Numeral.text]
  unfold number?
  rw [grouped, splitSign_text_append numeral.sign (stops_isSign_digits _ _)]
  simp only [takeWhile_append_of_stops numeral.whole.digits stops,
    dropWhile_append_of_stops numeral.whole.digits stops, if_neg numeral.whole.nonempty,
    fraction_fractionText_append closes, Numeral.text]

theorem exists_numeral_of_number? {text lexeme rest : List Char}
    (found : number? text = some (lexeme, rest)) :
    ∃ numeral : Numeral, numeral.text = lexeme ∧ Closes numeral rest := by
  obtain ⟨sign, body, parts, -⟩ := exists_sign text
  unfold number? at found
  simp only [parts] at found
  split at found
  · contradiction
  · next nonempty =>
    let whole : DigitRun :=
      ⟨body.takeWhile Char.isDigit, nonempty, fun _ member => List.mem_takeWhile_imp member⟩
    have stops := stops_dropWhile Char.isDigit body
    rcases fraction_cases (body.dropWhile Char.isDigit) with none | ⟨places, after, some, closed⟩
    · rw [none] at found
      cases found
      exact ⟨⟨sign, whole, .none⟩, rfl, stops, fun _ => none⟩
    · rw [some] at found
      cases found
      exact ⟨⟨sign, whole, .some places⟩, rfl, closed, fun absent => by contradiction⟩

theorem number?_eq_some_iff {text lexeme rest : List Char} :
    number? text = some (lexeme, rest) ↔
      text = lexeme ++ rest ∧ ∃ numeral : Numeral, numeral.text = lexeme ∧ Closes numeral rest := by
  constructor
  · intro found
    exact ⟨(number?_append found).symm, exists_numeral_of_number? found⟩
  · rintro ⟨rfl, numeral, rfl, closes⟩
    exact number?_text_append closes

/-! ## Separators, ellipses and infinities -/

theorem separator?_eq_some_iff {text lexeme rest : List Char} :
    separator? text = some (lexeme, rest) ↔
      text = lexeme ++ rest ∧
        ∃ separator : Separator, separator.text = lexeme ∧ Stops Text.isBlank rest := by
  constructor
  · intro found
    refine ⟨(separator?_append found).symm, ?_⟩
    unfold separator? at found
    split at found
    · cases found
      exact ⟨⟨_, _, fun _ member => List.mem_takeWhile_imp member,
        fun _ member => List.mem_takeWhile_imp member⟩, rfl, stops_dropWhile _ _⟩
    · contradiction
  · rintro ⟨rfl, separator, rfl, stops⟩
    have comma : Stops Text.isBlank (',' :: (separator.after ++ rest)) := stops_cons _ rfl
    unfold separator?
    rw [Separator.text, List.append_assoc, List.cons_append,
      dropWhile_append_of_stops separator.blankBefore comma,
      takeWhile_append_of_stops separator.blankBefore comma]
    simp only [takeWhile_append_of_stops separator.blankAfter stops,
      dropWhile_append_of_stops separator.blankAfter stops]

theorem ellipsis?_eq_some_iff {text lexeme rest : List Char} :
    ellipsis? text = some (lexeme, rest) ↔ text = lexeme ++ rest ∧ lexeme = ellipsisText := by
  constructor
  · intro found
    refine ⟨(ellipsis?_append found).symm, ?_⟩
    unfold ellipsis? at found
    split at found
    · cases found
      rfl
    · contradiction
  · rintro ⟨rfl, rfl⟩
    rfl

theorem infinity?_eq_some_iff {text lexeme rest : List Char} :
    infinity? text = some (lexeme, rest) ↔
      text = lexeme ++ rest ∧ ∃ sign, infinityText sign = lexeme := by
  constructor
  · intro found
    refine ⟨(infinity?_append found).symm, ?_⟩
    obtain ⟨sign, body, parts, -⟩ := exists_sign text
    unfold infinity? at found
    rw [parts] at found
    split at found
    · next splits =>
      cases splits
      cases found
      exact ⟨sign, rfl⟩
    · contradiction
  · rintro ⟨rfl, sign, rfl⟩
    have unsigned : Stops isSign (['I', 'n', 'f'] ++ rest) := stops_cons _ rfl
    unfold infinity? infinityText
    rw [List.append_assoc, splitSign_text_append sign unsigned]
    rfl

end Lexeme

end Progressions
