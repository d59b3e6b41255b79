import Progressions.Number.Binary64

/-!
# Numbers

A number is an exact integer or a binary64 number, and an operation keeps
integers exact for as long as both operands are integers.  A mixed operation
converts the integer first; division always yields a binary64 number.

The order is exact: `compare?` compares the places of two numbers on the line,
measured in units, so an integer is never rounded before it is compared.
-/

set_option autoImplicit false

namespace Progressions

inductive Number where
  | int (value : Int)
  | float (value : Binary64)
deriving DecidableEq

/-- Why an operation on numbers, or on their texts, has no result. -/
inductive NumberError where
  | literalTooLong (digits : Nat)
  | textTooLong
  /-- An integer operand lies beyond the finite binary64 numbers. -/
  | operandTooLarge
  /-- The quotient of two integers lies beyond the finite binary64 numbers. -/
  | quotientTooLarge
  | divisionByZero
deriving DecidableEq

/-- How many decimal digits of an integer may be read or written. -/
def digitLimit : Nat := 4300

namespace NumberError

def message : NumberError → String
  | .literalTooLong digits =>
    "Exceeds the limit (" ++ toString digitLimit ++
      " digits) for integer string conversion: value has " ++ toString digits ++
      " digits; use sys.set_int_max_str_digits() to increase the limit"
  | .textTooLong =>
    "Exceeds the limit (" ++ toString digitLimit ++
      " digits) for integer string conversion; " ++
      "use sys.set_int_max_str_digits() to increase the limit"
  | .operandTooLarge => "int too large to convert to float"
  | .quotientTooLarge => "integer division result too large for a float"
  | .divisionByZero => "division by zero"

end NumberError

namespace Number

/-! ## Arithmetic -/

/-- A rounded number, and the cause of the error if it is infinite. -/
def unlessInfinite (cause : NumberError) : Binary64 → Except NumberError Binary64
  | .infinite _ => .error cause
  | near => .ok near

/-- The nearest binary64 number, which must be finite for an integer. -/
def toBinary64 : Number → Except NumberError Binary64
  | .float value => .ok value
  | .int value => unlessInfinite .operandTooLarge (Binary64.ofInt value)

/-- An operation on the nearest binary64 numbers of both operands, the left one first. -/
def rounded (operation : Binary64 → Binary64 → Binary64) (left right : Number) :
    Except NumberError Number := do
  let left ← left.toBinary64
  let right ← right.toBinary64
  return .float (operation left right)

def add : Number → Number → Except NumberError Number
  | .int left, .int right => .ok (.int (left + right))
  | left, right => rounded Binary64.add left right

def sub : Number → Number → Except NumberError Number
  | .int left, .int right => .ok (.int (left - right))
  | left, right => rounded Binary64.sub left right

def mul : Number → Number → Except NumberError Number
  | .int left, .int right => .ok (.int (left * right))
  | left, right => rounded Binary64.mul left right

/-- The quotient of two integers is rounded once, from its exact value. -/
def div : Number → Number → Except NumberError Number
  | .int left, .int right =>
    if right = 0 then .error .divisionByZero
    else (unlessInfinite .quotientTooLarge (Binary64.ofQuotient left right)).map .float
  | left, right => do
    let left ← left.toBinary64
    let right ← right.toBinary64
    if right.isZero then throw .divisionByZero
    return .float (left.div right)

/-! ## Order -/

/-- A place on the line of numbers with both ends. -/
inductive Place where
  | leftEnd
  | at (units : Int)
  | rightEnd
deriving DecidableEq

def Place.compare : Place → Place → Ordering
  | .leftEnd, .leftEnd => .eq
  | .leftEnd, _ => .lt
  | _, .leftEnd => .gt
  | .rightEnd, .rightEnd => .eq
  | .rightEnd, _ => .gt
  | _, .rightEnd => .lt
  | .at left, .at right => Ord.compare left right

/-- The exact place of a number; not-a-number has none. -/
def place? : Number → Option Place
  | .int value => some (.at (value * unitsPerOne))
  | .float .nan => none
  | .float (.infinite negative) => some (if negative then .leftEnd else .rightEnd)
  | .float (.finite negative magnitude) => some (.at (Binary64.signedUnits negative magnitude))

/-- The exact order of two numbers, unless one of them is not-a-number. -/
def compare? (left right : Number) : Option Ordering := do
  let left ← left.place?
  let right ← right.place?
  return left.compare right

/-- The two numbers are the same place; zeros of either sign are. -/
def equals (left right : Number) : Bool := left.compare? right == some .eq

def less (left right : Number) : Bool := left.compare? right == some .lt

def greater (left right : Number) : Bool := left.compare? right == some .gt

def atLeast (left right : Number) : Bool := left.greater right || left.equals right

def isZero (number : Number) : Bool := number.equals (.int 0)

def allEqual : List Number → List Number → Bool
  | [], [] => true
  | left :: lefts, right :: rights => left.equals right && allEqual lefts rights
  | _, _ => false

def optionEqual : Option Number → Option Number → Bool
  | none, none => true
  | some left, some right => left.equals right
  | _, _ => false

def typeName : Number → String
  | .int _ => "int"
  | .float _ => "float"

end Number

end Progressions
