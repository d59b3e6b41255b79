import Progressions.Location
import Progressions.Number.Text

/-!
# Tokens

A token is a lexeme of a specification with its kind, the number it stands for and
its location.  Tokens that come from a specification have a number exactly when
they are literals; a token list put together by hand may hold any combination.
-/

set_option autoImplicit false

namespace Progressions

inductive TokenKind where
  | number
  | infinity
  | comma
  | ellipsis
  | invalid
  | endOfInput
deriving DecidableEq

namespace TokenKind

def name : TokenKind → String
  | .number => "NUMBER"
  | .infinity => "INFINITY"
  | .comma => "COMMA"
  | .ellipsis => "ELLIPSIS"
  | .invalid => "INVALID"
  | .endOfInput => "EOF"

def all : List TokenKind := [.number, .infinity, .comma, .ellipsis, .invalid, .endOfInput]

def ofName? (name : String) : Option TokenKind := all.find? (·.name == name)

/-- Literals stand for a number. -/
def isLiteral : TokenKind → Bool
  | .number | .infinity => true
  | _ => false

end TokenKind

structure Token where
  kind : TokenKind
  lexeme : String
  value : Option Number
  location : Location
deriving DecidableEq

namespace Token

/-- The token that stands after the last character. -/
def atEnd (source : String) (offset : Nat) : Token :=
  ⟨.endOfInput, "", none, .ofOffset source offset⟩

/-- The kind and the lexeme, and the number where its text differs from the lexeme. -/
def brief (token : Token) : String :=
  let number :=
    match token.value with
    | some value => if value.plain = token.lexeme then "" else " -> " ++ value.plain
    | none => ""
  token.kind.name ++ "(" ++ Text.quoted token.lexeme ++ number ++ ")"

def display (token : Token) : String :=
  "Token(" ++ token.kind.name ++ ", " ++ Text.quoted token.lexeme ++ ", " ++
    (token.value.map Number.plain).getD "None" ++ ", " ++ token.location.display ++ ")"

end Token

end Progressions
