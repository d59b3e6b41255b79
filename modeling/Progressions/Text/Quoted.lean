import Progressions.Text.Printable

/-!
# Quoted text

A text is quoted with apostrophes, or with quotation marks when it holds an
apostrophe and no quotation mark.  The mark and the backslash are escaped, line
ends and tabs have names, and every other character that is not printable is
written with the digits of its code point.
-/

set_option autoImplicit false

namespace Progressions.Text

def apostrophe : Char := '\x27'

def quotationMark : Char := '\x22'

/-- At least `width` hexadecimal digits. -/
def hexDigits (width code : Nat) : List Char :=
  let digits := Nat.toDigits 16 code
  List.replicate (width - digits.length) '0' ++ digits

/-- The mark a text is quoted with. -/
def quoteMark (text : List Char) : Char :=
  if text.contains apostrophe && !text.contains quotationMark then quotationMark else apostrophe

/-- A character inside a quoted text. -/
def escape (mark character : Char) : List Char :=
  if character = mark ∨ character = '\\' then ['\\', character]
  else if character = '\n' then ['\\', 'n']
  else if character = '\r' then ['\\', 'r']
  else if character = '\t' then ['\\', 't']
  else if isPrintable character then [character]
  else if character.toNat < 0x100 then '\\' :: 'x' :: hexDigits 2 character.toNat
  else if character.toNat < 0x10000 then '\\' :: 'u' :: hexDigits 4 character.toNat
  else '\\' :: 'U' :: hexDigits 8 character.toNat

def quotedChars (text : List Char) : List Char :=
  let mark := quoteMark text
  mark :: text.flatMap (escape mark) ++ [mark]

def quoted (text : String) : String := String.ofList (quotedChars text.toList)

end Progressions.Text
