import Progressions.Number.Basic
import Progressions.Text.Blank
import Progressions.Text.DecimalDigit

/-!
# Integers on the command line

An integer argument may stand between blanks.  It has an optional sign and decimal
digits of any script, with single underscores allowed between two digits, and no
more digits than the digit limit.
-/

set_option autoImplicit false

namespace Progressions.Text

/-- A blank that may surround an integer: the information separators may not. -/
def isMargin (character : Char) : Bool :=
  isBlank character && !(0x1c ≤ character.toNat && character.toNat ≤ 0x1f)

def trimMargins (text : List Char) : List Char :=
  ((text.dropWhile isMargin).reverse.dropWhile isMargin).reverse

/-- The values of digits, each two with at most one underscore between them. -/
def digitValues? : List Char → Option (List Nat)
  | [] => none
  | [character] => do return [← digitValue? character]
  | character :: '_' :: rest => do return (← digitValue? character) :: (← digitValues? rest)
  | character :: next :: rest => do
    return (← digitValue? character) :: (← digitValues? (next :: rest))

/-- The natural number of digit values, the most significant first. -/
def ofDigitValues (values : List Nat) : Nat :=
  values.foldl (fun total value => 10 * total + value) 0

def integer? (text : String) : Option Int := do
  let trimmed := trimMargins text.toList
  let (negative, body) :=
    match trimmed with
    | '-' :: rest => (true, rest)
    | '+' :: rest => (false, rest)
    | rest => (false, rest)
  let values ← digitValues? body
  if digitLimit < values.length then none
  else return if negative then -(ofDigitValues values : Int) else ofDigitValues values

end Progressions.Text
