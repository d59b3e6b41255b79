import Progressions.Number.Text
import Progressions.Text.Quoted

/-!
# Plain values

Plain values are what descriptions and option mappings are made of.  An object
keeps its entries in order.  `display` writes a value on one line, with numbers
within the digit limit.
-/

set_option autoImplicit false

namespace Progressions

inductive Value where
  | null
  | bool (value : Bool)
  | number (value : Number)
  | text (value : String)
  | list (items : List Value)
  | object (entries : List (String × Value))
deriving Inhabited

/-- How a truth value is written. -/
def truthText (value : Bool) : String := if value then "True" else "False"

/-- How a missing value is written. -/
def nothingText : String := "None"

/-- The text of a number that may be missing. -/
def optionText : Option Number → Except NumberError String
  | none => .ok nothingText
  | some number => number.text

namespace Value

/-- The name of a value's type in messages. -/
def typeName : Value → String
  | .null => "NoneType"
  | .bool _ => "bool"
  | .number value => value.typeName
  | .text _ => "str"
  | .list _ => "list"
  | .object _ => "dict"

def ofOption : Option Number → Value
  | none => .null
  | some value => .number value

def entries : Value → List (String × Value)
  | .object entries => entries
  | _ => []

mutual

def display : Value → Except NumberError String
  | .null => .ok nothingText
  | .bool value => .ok (truthText value)
  | .number value => value.text
  | .text value => .ok (Text.quoted value)
  | .list items => do return "[" ++ ", ".intercalate (← displayItems items) ++ "]"
  | .object entries => do return "\x7b" ++ ", ".intercalate (← displayEntries entries) ++ "\x7d"

def displayItems : List Value → Except NumberError (List String)
  | [] => .ok []
  | item :: rest => do
    let text ← display item
    return text :: (← displayItems rest)

def displayEntries : List (String × Value) → Except NumberError (List String)
  | [] => .ok []
  | (key, value) :: rest => do
    let text ← display value
    return (Text.quoted key ++ ": " ++ text) :: (← displayEntries rest)

end

mutual

/-- Equal values have equal numbers; entries are compared in order. -/
def equals : Value → Value → Bool
  | .null, .null => true
  | .bool left, .bool right => left == right
  | .number left, .number right => left.equals right
  | .text left, .text right => left == right
  | .list left, .list right => itemsEqual left right
  | .object left, .object right => entriesEqual left right
  | _, _ => false

def itemsEqual : List Value → List Value → Bool
  | [], [] => true
  | left :: lefts, right :: rights => equals left right && itemsEqual lefts rights
  | _, _ => false

def entriesEqual : List (String × Value) → List (String × Value) → Bool
  | [], [] => true
  | (leftKey, left) :: lefts, (rightKey, right) :: rights =>
    leftKey == rightKey && equals left right && entriesEqual lefts rights
  | _, _ => false

end

end Value

end Progressions
