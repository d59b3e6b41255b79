import Progressions.Value.Basic

/-!
# JSON documents

A value is written as a JSON document with an entry or item per line, indented by
two blanks a level, and in printable ASCII characters only.  A number must be finite and within
the digit limit.
-/

set_option autoImplicit false

namespace Progressions

inductive JsonError where
  | number (cause : NumberError)
  /-- JSON has no text for a number that is not finite. -/
  | notFinite (value : Binary64)
deriving DecidableEq

def JsonError.message : JsonError → String
  | .number cause => cause.message
  | .notFinite value => "Out of range float values are not JSON compliant: " ++ value.plain

namespace Value.Json

def unicodeEscape (code : Nat) : List Char := '\\' :: 'u' :: Text.hexDigits 4 code

/-- A character of a JSON string; one beyond the basic plane takes two escapes. -/
def escape (character : Char) : List Char :=
  let code := character.toNat
  if character = Text.quotationMark ∨ character = '\\' then ['\\', character]
  else if character = '\n' then ['\\', 'n']
  else if character = '\r' then ['\\', 'r']
  else if character = '\t' then ['\\', 't']
  else if code = 0x8 then ['\\', 'b']
  else if code = 0xc then ['\\', 'f']
  else if 0x20 ≤ code ∧ code < 0x7f then [character]
  else if code < 0x10000 then unicodeEscape code
  else
    unicodeEscape (0xd800 + (code - 0x10000) / 0x400) ++
      unicodeEscape (0xdc00 + (code - 0x10000) % 0x400)

def string (text : String) : String :=
  String.ofList (Text.quotationMark :: text.toList.flatMap escape ++ [Text.quotationMark])

def number : Number → Except JsonError String
  | .float value => if value.isFinite then .ok value.plain else .error (.notFinite value)
  | .int value => (Number.int value).text.mapError .number

def lineStart (depth : Nat) : String := "\n" ++ String.ofList (List.replicate (2 * depth) ' ')

/-- The parts between brackets, each on a line of its own one level deeper. -/
def block (opening closing : String) (depth : Nat) (parts : List String) : String :=
  if parts.isEmpty then opening ++ closing
  else
    opening ++ lineStart (depth + 1) ++ ("," ++ lineStart (depth + 1)).intercalate parts ++
      lineStart depth ++ closing

mutual

def render (depth : Nat) : Value → Except JsonError String
  | .null => .ok "null"
  | .bool value => .ok (if value then "true" else "false")
  | .number value => number value
  | .text value => .ok (string value)
  | .list items => do return block "[" "]" depth (← renderItems (depth + 1) items)
  | .object entries => do
    return block "\x7b" "\x7d" depth (← renderEntries (depth + 1) entries)

def renderItems (depth : Nat) : List Value → Except JsonError (List String)
  | [] => .ok []
  | item :: rest => do
    let text ← render depth item
    return text :: (← renderItems depth rest)

def renderEntries (depth : Nat) : List (String × Value) → Except JsonError (List String)
  | [] => .ok []
  | (key, value) :: rest => do
    let text ← render depth value
    return (string key ++ ": " ++ text) :: (← renderEntries depth rest)

end

end Value.Json

/-- The JSON document of a value. -/
def Value.json (value : Value) : Except JsonError String := Value.Json.render 0 value

end Progressions
