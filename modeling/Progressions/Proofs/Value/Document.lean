import Mathlib.Data.List.Forall2
import Progressions.Proofs.Number.Decimal
import Progressions.Proofs.Result
import Progressions.Value.Json

/-!
# JSON documents

`Json.Document` says which texts are strict JSON documents, and of what value: it knows the names
`null`, `true` and `false`, decimals, strings, lists and objects, and no other number than a
decimal.  `Value.json` writes such a document of its value (`document_of_json`), and it does so
unless one of the numbers of the value has no text; then the first of these is the fault
(`failure?_json`).
-/

set_option autoImplicit false

namespace Progressions

namespace Json

def isSpace (character : Char) : Bool :=
  character == ' ' || character == '\t' || character == '\n' || character == '\r'

def Spaces (text : List Char) : Prop := ∀ character ∈ text, isSpace character = true

instance (text : List Char) : Decidable (Spaces text) := List.decidableBAll _ text

theorem spaces_nil : Spaces [] := List.forall_mem_nil _

/-! ## Strings -/

def hexValue? (character : Char) : Option Nat :=
  if character.isDigit then some (character.toNat - '0'.toNat)
  else if 'a' ≤ character ∧ character ≤ 'f' then some (character.toNat - 'a'.toNat + 10)
  else if 'A' ≤ character ∧ character ≤ 'F' then some (character.toNat - 'A'.toNat + 10)
  else none

def hexNumber? (digits : List Char) : Option Nat :=
  digits.foldlM (fun total digit => (hexValue? digit).map (16 * total + ·)) 0

/-- Four hexadecimal digits and the number that they are. -/
def IsUnit (digits : List Char) (code : Nat) : Prop :=
  digits.length = 4 ∧ hexNumber? digits = some code

/-- What may stand behind a backslash, and for which character. -/
def shortEscapes : List (Char × Char) :=
  [(Text.quotationMark, Text.quotationMark), ('\\', '\\'), ('/', '/'), ('b', '\x08'),
    ('f', '\x0c'), ('n', '\n'), ('r', '\r'), ('t', '\t')]

/-- The text between the marks of a string that stands for one character. -/
inductive Spells : List Char → Char → Prop
  | plain {character : Char} (noControl : 0x20 ≤ character.toNat)
      (noMark : character ≠ Text.quotationMark) (noBackslash : character ≠ '\\') :
      Spells [character] character
  | short {name character : Char} (listed : (name, character) ∈ shortEscapes) :
      Spells ['\\', name] character
  | unit {digits : List Char} {character : Char} (isUnit : IsUnit digits character.toNat) :
      Spells ('\\' :: 'u' :: digits) character
  | pair {leading trailing : List Char} {high low : Nat} {character : Char}
      (isHigh : IsUnit leading (0xd800 + high)) (isLow : IsUnit trailing (0xdc00 + low))
      (tenBits : high < 0x400 ∧ low < 0x400)
      (code : character.toNat = 0x10000 + 0x400 * high + low) :
      Spells (('\\' :: 'u' :: leading) ++ '\\' :: 'u' :: trailing) character

def IsString (text : List Char) (value : String) : Prop :=
  ∃ parts, List.Forall₂ Spells parts value.toList ∧
    text = Text.quotationMark :: parts.flatten ++ [Text.quotationMark]

/-! ## Documents -/

/-- The text stands between spaces. -/
inductive Padded {Meaning : Type} (Denotes : List Char → Meaning → Prop) :
    List Char → Meaning → Prop
  | mk {before body behind : List Char} {meaning : Meaning} (spacesBefore : Spaces before)
      (denotes : Denotes body meaning) (spacesBehind : Spaces behind) :
      Padded Denotes (before ++ body ++ behind) meaning

/-- A key, a colon and a value. -/
inductive IsEntry (Denotes : List Char → Value → Prop) : List Char → String × Value → Prop
  | mk {key before behind body : List Char} {name : String} {value : Value}
      (isKey : IsString key name) (spacesBefore : Spaces before) (spacesBehind : Spaces behind)
      (denotes : Denotes body value) :
      IsEntry Denotes (key ++ before ++ ':' :: behind ++ body) (name, value)

inductive Denotes : List Char → Value → Prop
  | null : Denotes "null".toList .null
  | bool (value : Bool) : Denotes (if value then "true" else "false").toList (.bool value)
  | number (decimal : Decimal) : Denotes decimal.text (.number decimal.value)
  | text {text : List Char} {value : String} (isString : IsString text value) :
      Denotes text (.text value)
  | noItems {inside : List Char} (spaces : Spaces inside) :
      Denotes ('[' :: inside ++ [']']) (.list [])
  | items {parts : List (List Char)} {items : List Value} (nonempty : parts ≠ [])
      (inside : List.Forall₂ (Padded Denotes) parts items) :
      Denotes ('[' :: [','].intercalate parts ++ [']']) (.list items)
  | noEntries {inside : List Char} (spaces : Spaces inside) :
      Denotes ('\x7b' :: inside ++ ['\x7d']) (.object [])
  | entries {parts : List (List Char)} {entries : List (String × Value)} (nonempty : parts ≠ [])
      (inside : List.Forall₂ (Padded (IsEntry Denotes)) parts entries) :
      Denotes ('\x7b' :: [','].intercalate parts ++ ['\x7d']) (.object entries)

/-- A whole text is the JSON of one value. -/
def Document : List Char → Value → Prop := Padded Denotes

/-! ## What is no document -/

/-- What a text starts with behind a minus sign. -/
def lead? (text : List Char) : Option Char := (text.dropWhile (· == '-')).head?

def mayLead (first : Char) : Bool :=
  first.isDigit || ['n', 't', 'f', Text.quotationMark, '[', '\x7b'].contains first

theorem lead?_decimal (decimal : Decimal) :
    ∃ digit, lead? decimal.text = some digit ∧ digit.isDigit = true := by
  obtain ⟨digit, digits, isWhole⟩ := List.exists_cons_of_ne_nil decimal.numeral.whole.nonempty
  have isDigit := decimal.numeral.whole.digits digit (isWhole ▸ List.mem_cons_self)
  have noMinus : digit ≠ '-' := by
    rintro rfl
    cases isDigit
  refine ⟨digit, ?_, isDigit⟩
  cases sign : decimal.numeral.sign with
  | plus => exact absurd sign decimal.noPlus
  | absent | minus => simp [lead?, Decimal.text, Numeral.text, sign, Sign.text, isWhole, noMinus]

theorem lead?_of_denotes {text : List Char} {value : Value} (denotes : Denotes text value) :
    (lead? text).any mayLead = true := by
  cases denotes with
  | null => decide +kernel
  | bool value => cases value <;> decide +kernel
  | number decimal =>
    obtain ⟨digit, isLead, isDigit⟩ := lead?_decimal decimal
    rw [isLead, Option.any_some, mayLead, isDigit, Bool.true_or]
  | text isString =>
    obtain ⟨parts, -, rfl⟩ := isString
    rfl
  | noItems | items | noEntries | entries => rfl

/-- The words for numbers that are not finite are no JSON. -/
theorem not_denotes_special {word : String} (special : word ∈ ["NaN", "Infinity", "-Infinity"])
    (value : Value) : ¬ Denotes word.toList value := by
  intro denotes
  have leads : ∀ word ∈ ["NaN", "Infinity", "-Infinity"],
      (lead? word.toList).any mayLead = false := by
    decide +kernel
  exact Bool.false_ne_true ((leads word special).symm.trans (lead?_of_denotes denotes))

/-! ## Strings that are written -/

theorem hexValue?_digitChar {digit : Nat} (below : digit < 16) :
    hexValue? (Nat.digitChar digit) = some digit := by
  have all : ∀ digit < 16, hexValue? (Nat.digitChar digit) = some digit := by decide
  exact all digit below

theorem hexNumber?_append (digits : List Char) (digit : Char) :
    hexNumber? (digits ++ [digit]) =
      (hexNumber? digits).bind fun total => (hexValue? digit).map (16 * total + ·) := by
  simp [hexNumber?, List.foldlM_append]

theorem hexNumber?_toDigits (code : Nat) : hexNumber? (Nat.toDigits 16 code) = some code := by
  induction code using Nat.strong_induction_on with
  | h code inductionHypothesis =>
    rcases Nat.lt_or_ge code 16 with short | long
    · simp [Nat.toDigits_of_lt_base short, hexNumber?, hexValue?_digitChar short]
    · have shorter := inductionHypothesis (code / 16) (Nat.div_lt_self (by omega) (by decide))
      rw [Nat.toDigits_of_base_le (by decide) long, hexNumber?_append, shorter, Option.bind_some,
        hexValue?_digitChar (Nat.mod_lt code (by decide)), Option.map_some, Nat.div_add_mod]

theorem hexNumber?_zeros (count : Nat) (digits : List Char) :
    hexNumber? (List.replicate count '0' ++ digits) = hexNumber? digits := by
  induction count with
  | zero => rfl
  | succ count inductionHypothesis => exact inductionHypothesis

theorem isUnit_hexDigits {code : Nat} (below : code < 0x10000) :
    IsUnit (Text.hexDigits 4 code) code := by
  constructor
  · have fits : (Nat.toDigits 16 code).length ≤ 4 :=
      (Nat.length_toDigits_le_iff (by decide) (by decide)).mpr below
    rw [Text.hexDigits, List.length_append, List.length_replicate]
    omega
  · rw [Text.hexDigits, hexNumber?_zeros, hexNumber?_toDigits]

theorem spells_escape (character : Char) : Spells (Value.Json.escape character) character := by
  have below : character.toNat < 0x110000 := by
    rcases character.valid with first | ⟨-, last⟩
    · exact Nat.lt_trans first (by decide)
    · exact last
  rw [Value.Json.escape]
  split_ifs with marked newline lineStart tab back feed ascii basic
  · rcases marked with rfl | rfl
    · exact .short (by decide)
    · exact .short (by decide)
  · exact newline ▸ .short (by decide)
  · exact lineStart ▸ .short (by decide)
  · exact tab ▸ .short (by decide)
  · have isBack : character = '\x08' := Char.toNat_inj.mp back
    exact isBack ▸ .short (by decide)
  · have isFeed : character = '\x0c' := Char.toNat_inj.mp feed
    exact isFeed ▸ .short (by decide)
  · obtain ⟨noMark, noBackslash⟩ := not_or.mp marked
    exact .plain ascii.1 noMark noBackslash
  · exact .unit (isUnit_hexDigits basic)
  · exact .pair (isUnit_hexDigits (by omega)) (isUnit_hexDigits (by omega))
      (by omega) (by omega)

theorem isString_string (value : String) : IsString (Value.Json.string value).toList value := by
  refine ⟨value.toList.map Value.Json.escape, ?_, ?_⟩
  · rw [List.forall₂_map_left_iff, List.forall₂_same]
    exact fun character _ => spells_escape character
  · rw [Value.Json.string, String.toList_ofList, List.flatMap_def]

/-! ## Documents that are written -/

theorem spaces_lineStart (depth : Nat) : Spaces (Value.Json.lineStart depth).toList := by
  intro character member
  simp only [Value.Json.lineStart, String.toList_append, String.toList_ofList, List.mem_append,
    List.mem_replicate] at member
  rcases member with isNewline | ⟨-, rfl⟩
  · obtain rfl := List.mem_singleton.mp isNewline
    rfl
  · rfl

theorem denotes_number {number : Number} {text : String}
    (written : Value.Json.number number = .ok text) : Denotes text.toList (.number number) := by
  cases number with
  | int value =>
    rw [Value.Json.number, mapError_eq_ok_iff, Number.text] at written
    split at written
    · obtain rfl := Except.ok.inj written
      obtain ⟨decimal, isText, isValue⟩ := Decimal.exists_int value
      rw [Number.plain, ← isText, ← isValue]
      exact .number decimal
    · cases written
  | float value => cases value with
    | nan | infinite => cases written
    | finite negative magnitude =>
      obtain rfl := Except.ok.inj written
      obtain ⟨decimal, isText, isValue⟩ := Decimal.exists_float negative magnitude
      rw [← isText, ← isValue]
      exact .number decimal

/-- Texts with the same spaces in front of each and other spaces behind the last are parts with a
comma between them. -/
theorem exists_parts {Meaning : Type} {Denotes : List Char → Meaning → Prop}
    {before behind : List Char} (spacesBefore : Spaces before) (spacesBehind : Spaces behind)
    {texts : List (List Char)} {meanings : List Meaning}
    (inside : List.Forall₂ Denotes texts meanings) (nonempty : texts ≠ []) :
    ∃ parts, parts ≠ [] ∧ List.Forall₂ (Padded Denotes) parts meanings ∧
      before ++ (',' :: before).intercalate texts ++ behind = [','].intercalate parts := by
  induction inside with
  | nil => exact absurd rfl nonempty
  | @cons text meaning texts meanings denotes inside inductionHypothesis =>
    match texts, inside, inductionHypothesis with
    | [], .nil, _ =>
      exact ⟨[before ++ text ++ behind], List.cons_ne_nil _ _,
        .cons (.mk spacesBefore denotes spacesBehind) .nil, by simp⟩
    | next :: texts, inside, inductionHypothesis =>
      obtain ⟨parts, some, padded, joined⟩ := inductionHypothesis (List.cons_ne_nil _ _)
      refine ⟨(before ++ text ++ []) :: parts, List.cons_ne_nil _ _,
        .cons (.mk spacesBefore denotes spaces_nil) padded, ?_⟩
      rw [List.intercalate_cons_cons, List.intercalate_cons_of_ne_nil some, ← joined]
      simp

theorem toList_block (opening closing : String) (depth : Nat) {texts : List String}
    (nonempty : texts ≠ []) :
    (Value.Json.block opening closing depth texts).toList =
      opening.toList ++ ((Value.Json.lineStart (depth + 1)).toList ++
        (',' :: (Value.Json.lineStart (depth + 1)).toList).intercalate
          (texts.map String.toList) ++ (Value.Json.lineStart depth).toList) ++
        closing.toList := by
  have notEmpty : texts.isEmpty = false := List.isEmpty_eq_false_iff.mpr nonempty
  have comma : ",".toList = [','] := by decide +kernel
  simp [Value.Json.block, notEmpty, String.toList_intercalate, comma]

/-- Between brackets stand the parts with their commas, or nothing. -/
theorem block_cases {Meaning : Type} {Denotes : List Char → Meaning → Prop}
    (opening closing : String) (depth : Nat) {texts : List String} {meanings : List Meaning}
    (inside : List.Forall₂ Denotes (texts.map String.toList) meanings) :
    (meanings = [] ∧ (Value.Json.block opening closing depth texts).toList =
        opening.toList ++ [] ++ closing.toList) ∨
      ∃ parts, parts ≠ [] ∧ List.Forall₂ (Padded Denotes) parts meanings ∧
        (Value.Json.block opening closing depth texts).toList =
          opening.toList ++ [','].intercalate parts ++ closing.toList := by
  by_cases empty : texts = []
  · subst empty
    cases inside
    exact .inl ⟨rfl, by simp [Value.Json.block]⟩
  · obtain ⟨parts, nonempty, padded, joined⟩ := exists_parts (spaces_lineStart (depth + 1))
      (spaces_lineStart depth) inside (mt List.map_eq_nil_iff.mp empty)
    exact .inr ⟨parts, nonempty, padded, by rw [toList_block _ _ _ empty, joined]⟩

mutual

theorem denotes_of_render {depth : Nat} {text : String} : (value : Value) →
    Value.Json.render depth value = .ok text → Denotes text.toList value
  | .null, written => by
    obtain rfl := Except.ok.inj written
    exact .null
  | .bool value, written => by
    obtain rfl := Except.ok.inj written
    have denotes := Denotes.bool value
    cases value <;> exact denotes
  | .number value, written => denotes_number written
  | .text value, written => by
    obtain rfl := Except.ok.inj written
    exact .text (isString_string value)
  | .list items, written => by
    obtain ⟨texts, inside, written⟩ := exists_of_bind_eq_ok written
    obtain rfl := Except.ok.inj written
    rcases block_cases "[" "]" depth (forall₂_of_renderItems items inside) with
      ⟨rfl, isText⟩ | ⟨parts, nonempty, padded, isText⟩
    · rw [isText]
      exact .noItems spaces_nil
    · rw [isText]
      exact .items nonempty padded
  | .object entries, written => by
    obtain ⟨texts, inside, written⟩ := exists_of_bind_eq_ok written
    obtain rfl := Except.ok.inj written
    rcases block_cases "\x7b" "\x7d" depth (forall₂_of_renderEntries entries inside) with
      ⟨rfl, isText⟩ | ⟨parts, nonempty, padded, isText⟩
    · rw [isText]
      exact .noEntries spaces_nil
    · rw [isText]
      exact .entries nonempty padded

theorem forall₂_of_renderItems {depth : Nat} {texts : List String} : (items : List Value) →
    Value.Json.renderItems depth items = .ok texts →
      List.Forall₂ Denotes (texts.map String.toList) items
  | [], written => by
    obtain rfl := Except.ok.inj written
    exact .nil
  | item :: rest, written => by
    obtain ⟨text, first, written⟩ := exists_of_bind_eq_ok written
    obtain ⟨texts, later, written⟩ := exists_of_bind_eq_ok written
    obtain rfl := Except.ok.inj written
    exact .cons (denotes_of_render item first) (forall₂_of_renderItems rest later)

theorem forall₂_of_renderEntries {depth : Nat} {texts : List String} :
    (entries : List (String × Value)) → Value.Json.renderEntries depth entries = .ok texts →
      List.Forall₂ (IsEntry Denotes) (texts.map String.toList) entries
  | [], written => by
    obtain rfl := Except.ok.inj written
    exact .nil
  | (key, value) :: rest, written => by
    obtain ⟨text, first, written⟩ := exists_of_bind_eq_ok written
    obtain ⟨texts, later, written⟩ := exists_of_bind_eq_ok written
    obtain rfl := Except.ok.inj written
    refine .cons ?_ (forall₂_of_renderEntries rest later)
    have oneSpace : Spaces [' '] := by decide
    have entry := IsEntry.mk (isString_string key) spaces_nil oneSpace
      (denotes_of_render value first)
    have colon : ": ".toList = [':', ' '] := by decide +kernel
    simpa [colon] using entry

end

/-- What is written of a value is a JSON document of the value. -/
theorem document_of_json {value : Value} {text : String} (written : value.json = .ok text) :
    Document text.toList value := by
  have document := Padded.mk spaces_nil (denotes_of_render value written) spaces_nil
  rwa [List.nil_append, List.append_nil] at document

end Json

/-! ## Values without a document -/

namespace Value

mutual

/-- The numbers of a value in the order in which they are written. -/
def numbers : Value → List Number
  | .number value => [value]
  | .list items => numbersOfItems items
  | .object entries => numbersOfEntries entries
  | .null | .bool _ | .text _ => []

def numbersOfItems : List Value → List Number
  | [] => []
  | item :: rest => item.numbers ++ numbersOfItems rest

def numbersOfEntries : List (String × Value) → List Number
  | [] => []
  | (_, value) :: rest => value.numbers ++ numbersOfEntries rest

end

theorem numbersOfItems_map_number (numbers : List Number) :
    numbersOfItems (numbers.map .number) = numbers := by
  induction numbers with
  | nil => rfl
  | cons number numbers inductionHypothesis =>
    rw [List.map_cons, numbersOfItems, inductionHypothesis, Value.numbers, List.singleton_append]

/-- Why a number has no text. -/
def numberFailure? (number : Number) : Option JsonError := failure? (Json.number number)

mutual

theorem failure?_render (depth : Nat) : (value : Value) →
    failure? (Json.render depth value) = value.numbers.findSome? numberFailure?
  | .null | .bool _ | .text _ => rfl
  | .number value => by
    rw [numbers, List.findSome?_singleton]
    rfl
  | .list items => by
    rw [numbers, ← failure?_renderItems (depth + 1) items]
    exact failure?_map _ _
  | .object entries => by
    rw [numbers, ← failure?_renderEntries (depth + 1) entries]
    exact failure?_map _ _

theorem failure?_renderItems (depth : Nat) : (items : List Value) →
    failure? (Json.renderItems depth items) = (numbersOfItems items).findSome? numberFailure?
  | [] => rfl
  | item :: rest => by
    rw [numbersOfItems, List.findSome?_append, ← failure?_render depth item,
      ← failure?_renderItems depth rest]
    exact failure?_map₂ _ _ _

theorem failure?_renderEntries (depth : Nat) : (entries : List (String × Value)) →
    failure? (Json.renderEntries depth entries) =
      (numbersOfEntries entries).findSome? numberFailure?
  | [] => rfl
  | (key, value) :: rest => by
    rw [numbersOfEntries, List.findSome?_append, ← failure?_render depth value,
      ← failure?_renderEntries depth rest]
    exact failure?_map₂ _ _ _

end

/-- A value has no document for the first of its numbers that has no text, if there is one. -/
theorem failure?_json (value : Value) :
    failure? value.json = value.numbers.findSome? numberFailure? :=
  failure?_render 0 value

end Value

end Progressions
