import Progressions.Text.Blank
import Progressions.Token.Basic

/-!
# Lexemes

Four classes of lexemes can be cut off the front of a text: a separator is a comma
with all blanks around it, an ellipsis is three points, an infinity is `Inf` with
an optional sign, and a number is an optional sign, digits, and optionally a point
and further digits.  Each cut takes the longest lexeme of its class.  What starts
with no lexeme is invalid as a whole.

`cut_append` says that a cut loses no character and `cut_lexeme_ne_nil` that it
takes one unless there is none.
-/

set_option autoImplicit false

namespace Progressions.Lexeme

/-- A lexeme at the front of a text, and the text after it. -/
structure Piece where
  kind : TokenKind
  lexeme : List Char
  rest : List Char

def separator? (text : List Char) : Option (List Char × List Char) :=
  match text.dropWhile Text.isBlank with
  | ',' :: after =>
    some (text.takeWhile Text.isBlank ++ ',' :: after.takeWhile Text.isBlank,
      after.dropWhile Text.isBlank)
  | _ => none

def ellipsis? : List Char → Option (List Char × List Char)
  | '.' :: '.' :: '.' :: rest => some (['.', '.', '.'], rest)
  | _ => none

def infinity? (text : List Char) : Option (List Char × List Char) :=
  match Number.splitSign text with
  | (sign, 'I' :: 'n' :: 'f' :: rest) => some (sign ++ ['I', 'n', 'f'], rest)
  | _ => none

/-- A point and the digits after it, if there is at least one digit. -/
def fraction : List Char → List Char × List Char
  | '.' :: digit :: rest =>
    if digit.isDigit then
      ('.' :: digit :: rest.takeWhile Char.isDigit, rest.dropWhile Char.isDigit)
    else
      ([], '.' :: digit :: rest)
  | text => ([], text)

def number? (text : List Char) : Option (List Char × List Char) :=
  let (sign, body) := Number.splitSign text
  let whole := body.takeWhile Char.isDigit
  if whole = [] then none
  else
    let (places, rest) := fraction (body.dropWhile Char.isDigit)
    some (sign ++ whole ++ places, rest)

/-- The lexeme at the front of a text. -/
def cut (text : List Char) : Piece :=
  match separator? text with
  | some (lexeme, rest) => ⟨.comma, lexeme, rest⟩
  | none =>
    match ellipsis? text with
    | some (lexeme, rest) => ⟨.ellipsis, lexeme, rest⟩
    | none =>
      match infinity? text with
      | some (lexeme, rest) => ⟨.infinity, lexeme, rest⟩
      | none =>
        match number? text with
        | some (lexeme, rest) => ⟨.number, lexeme, rest⟩
        | none => ⟨.invalid, text, []⟩

/-- The lexeme at the front of either of two texts: an ellipsis counts only in the second,
which also is what is invalid, and all else only in the first. -/
def cutApart (front second : List Char) : Piece :=
  let first := cut front
  if first.kind = .comma then first
  else
    match ellipsis? second with
    | some (lexeme, rest) => ⟨.ellipsis, lexeme, rest⟩
    | none => if first.kind.isLiteral then first else ⟨.invalid, second, []⟩

/-- The number a lexeme stands for: the sign of an infinity or the digits of a number. -/
def Piece.value (piece : Piece) : Except NumberError (Option Number) :=
  match piece.kind with
  | .infinity => .ok (some (.float (.infinite (piece.lexeme.head? == some '-'))))
  | .number => (Number.ofLiteral piece.lexeme).map some
  | _ => .ok none

/-! ## No character is lost -/

theorem splitSign_append (text : List Char) :
    (Number.splitSign text).1 ++ (Number.splitSign text).2 = text := by
  unfold Number.splitSign
  split <;> rfl

theorem separator?_append {text lexeme rest : List Char}
    (found : separator? text = some (lexeme, rest)) : lexeme ++ rest = text := by
  unfold separator? at found
  split at found
  · next after dropped =>
    cases found
    rw [List.append_assoc, List.cons_append, List.takeWhile_append_dropWhile, ← dropped,
      List.takeWhile_append_dropWhile]
  · contradiction

theorem ellipsis?_append {text lexeme rest : List Char}
    (found : ellipsis? text = some (lexeme, rest)) : lexeme ++ rest = text := by
  unfold ellipsis? at found
  split at found
  · cases found
    rfl
  · contradiction

theorem infinity?_append {text lexeme rest : List Char}
    (found : infinity? text = some (lexeme, rest)) : lexeme ++ rest = text := by
  unfold infinity? at found
  split at found
  · next sign after parts =>
    cases found
    have whole := splitSign_append text
    rw [parts] at whole
    rw [← whole, List.append_assoc]
    rfl
  · contradiction

theorem fraction_append (text : List Char) : (fraction text).1 ++ (fraction text).2 = text := by
  unfold fraction
  split
  · split
    · simp [List.takeWhile_append_dropWhile]
    · rfl
  · rfl

theorem number?_append {text lexeme rest : List Char}
    (found : number? text = some (lexeme, rest)) : lexeme ++ rest = text := by
  unfold number? at found
  dsimp only at found
  split at found
  · contradiction
  · cases found
    rw [List.append_assoc, List.append_assoc, fraction_append, List.takeWhile_append_dropWhile,
      splitSign_append]

theorem cut_append (text : List Char) : (cut text).lexeme ++ (cut text).rest = text := by
  unfold cut
  split
  · next found => exact separator?_append found
  · split
    · next found => exact ellipsis?_append found
    · split
      · next found => exact infinity?_append found
      · split
        · next found => exact number?_append found
        · exact List.append_nil text

theorem cut_lexeme_ne_nil {text : List Char} (nonempty : text ≠ []) : (cut text).lexeme ≠ [] := by
  unfold cut
  split
  · next found =>
    unfold separator? at found
    split at found
    · cases found
      simp
    · contradiction
  · split
    · next found =>
      unfold ellipsis? at found
      split at found
      · cases found
        simp
      · contradiction
    · split
      · next found =>
        unfold infinity? at found
        split at found
        · cases found
          simp
        · contradiction
      · split
        · next found =>
          unfold number? at found
          dsimp only at found
          split at found
          · contradiction
          · next whole =>
            cases found
            simp [whole]
        · exact nonempty

theorem length_cut_rest_lt {text : List Char} (nonempty : text ≠ []) :
    (cut text).rest.length < text.length := by
  have parts := congrArg List.length (cut_append text)
  have taken := List.length_pos_iff.mpr (cut_lexeme_ne_nil nonempty)
  rw [List.length_append] at parts
  omega

end Progressions.Lexeme
