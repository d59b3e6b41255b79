import Progressions.Number.Basic
import Progressions.Number.Shortest

/-!
# Texts of numbers

An integer is written with its decimal digits.  A finite binary64 number is
written with its shortest digits: positionally when its decimal exponent is
between `-4` and `15`, always with a digit on both sides of the point, and
otherwise as `d.ddde±xx` with at least two exponent digits.

`plain` writes every number; `text` refuses integers beyond the digit limit.
`ofLiteral` reads the literals of a specification and `ofPlain?` everything that
`plain` writes.
-/

set_option autoImplicit false

namespace Progressions

/-! ## Writing -/

def leastPositional : Int := -4

def positionalEnd : Int := 16

namespace DecimalDigits

def exponent (number : DecimalDigits) : Int := number.point - 1

def positional (number : DecimalDigits) : List Char :=
  if number.point ≤ 0 then
    '0' :: '.' :: List.replicate (-number.point).toNat '0' ++ number.digits
  else if (number.digits.length : Int) ≤ number.point then
    number.digits ++ List.replicate (number.point - number.digits.length).toNat '0' ++ ['.', '0']
  else
    number.digits.take number.point.toNat ++ '.' :: number.digits.drop number.point.toNat

def scientific (number : DecimalDigits) : List Char :=
  let power := Nat.toDigits 10 number.exponent.natAbs
  let mantissa :=
    match number.digits with
    | leading :: next :: rest => leading :: '.' :: next :: rest
    | short => short
  mantissa ++ 'e' :: (if number.exponent < 0 then '-' else '+') ::
    (if power.length < 2 then '0' :: power else power)

def layout (number : DecimalDigits) : List Char :=
  if leastPositional ≤ number.exponent ∧ number.exponent < positionalEnd then number.positional
  else number.scientific

end DecimalDigits

def Binary64.plain : Binary64 → String
  | .nan => "nan"
  | .infinite negative => if negative then "-inf" else "inf"
  | .finite negative magnitude =>
    String.ofList ((if negative then ['-'] else []) ++ magnitude.shortest.layout)

namespace Number

def plain : Number → String
  | .int value => toString value
  | .float value => value.plain

/-- The least natural number with more digits than may be written. -/
def digitCeiling : Nat := Nat.pow 10 digitLimit

/-- The number is not an integer beyond the digit limit. -/
def writable : Number → Bool
  | .int value => decide (value.natAbs < digitCeiling)
  | .float _ => true

def text (number : Number) : Except NumberError String :=
  if number.writable then .ok number.plain else .error .textTooLong

/-- The text of a printed value: a binary64 number without a fraction loses its point. -/
def printed : Number → Except NumberError String
  | .int value => text (.int value)
  | .float value =>
    match value.toInt? with
    | some whole => text (.int whole)
    | none => text (.float value)

def commaTexts (numbers : List Number) : Except NumberError String := do
  let texts ← numbers.mapM text
  return ", ".intercalate texts

/-! ## Reading -/

def splitSign : List Char → List Char × List Char
  | '+' :: rest => (['+'], rest)
  | '-' :: rest => (['-'], rest)
  | rest => ([], rest)

def signed (sign : List Char) (value : Nat) : Int :=
  if sign = ['-'] then -(value : Int) else value

/-- The number of a literal: an optional sign, digits, and optionally a point and further
digits.  Without a point it is an integer. -/
def ofLiteral (literal : List Char) : Except NumberError Number :=
  let (sign, body) := splitSign literal
  let whole := body.takeWhile Char.isDigit
  match body.dropWhile Char.isDigit with
  | '.' :: fraction =>
    .ok (.float (Binary64.ofDecimal (sign == ['-'])
      (Nat.ofDigitChars 10 (whole ++ fraction) 0) (-(fraction.length : Int))))
  | _ =>
    if digitLimit < whole.length then .error (.literalTooLong whole.length)
    else .ok (.int (signed sign (Nat.ofDigitChars 10 whole 0)))

/-- The exponent after a decimal's digits: nothing, or `e`, an optional sign and digits. -/
def readExponent? : List Char → Option Int
  | [] => some 0
  | 'e' :: rest =>
    let (sign, digits) := splitSign rest
    if digits ≠ [] ∧ digits.all Char.isDigit then
      some (signed sign (Nat.ofDigitChars 10 digits 0))
    else
      none
  | _ => none

/-- The number of a text that `plain` may write; an integer may also carry a plus sign. -/
def ofPlain? (text : String) : Option Number :=
  let (sign, body) := splitSign text.toList
  let negative := sign == ['-']
  if body = ['n', 'a', 'n'] then some (.float .nan)
  else if body = ['i', 'n', 'f'] then some (.float (.infinite negative))
  else
    let whole := body.takeWhile Char.isDigit
    match body.dropWhile Char.isDigit with
    | [] => if whole = [] then none else some (.int (signed sign (Nat.ofDigitChars 10 whole 0)))
    | '.' :: rest => do
      let fraction := rest.takeWhile Char.isDigit
      let exponent ← readExponent? (rest.dropWhile Char.isDigit)
      return .float (Binary64.ofDecimal negative (Nat.ofDigitChars 10 (whole ++ fraction) 0)
        (exponent - fraction.length))
    | rest => do
      let exponent ← readExponent? rest
      return .float (Binary64.ofDecimal negative (Nat.ofDigitChars 10 whole 0) exponent)

end Number

end Progressions
