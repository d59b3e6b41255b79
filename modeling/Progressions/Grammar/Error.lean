import Progressions.Diagnostic
import Progressions.Position
import Progressions.Token.Basic

/-!
# Faults of a specification's grammar

Each fault keeps the token it was found at, which is where its diagnostic points.
-/

set_option autoImplicit false

namespace Progressions

inductive GrammarError where
  /-- A number follows a comma that nothing stands before. -/
  | leadingComma (token : Token)
  /-- The specification does not start with a number. -/
  | noNumbers (token : Token)
  /-- An ellipsis follows too few numbers to show a pattern. -/
  | fewNumbers (ellipsis : Token) (count : Nat)
  /-- Something is left over after the last part of the grammar. -/
  | extraneous (token : Token)
deriving DecidableEq

/-- The forms a specification may have. -/
def grammarHelp : String := "please only use 'a,b,c', 'a,b,c,...' or 'a,b,c,...,z'"

namespace GrammarError

def token : GrammarError → Token
  | .leadingComma token => token
  | .noNumbers token => token
  | .fewNumbers ellipsis _ => ellipsis
  | .extraneous token => token

def code : GrammarError → String
  | .leadingComma _ => "P001"
  | .noNumbers _ => "P002"
  | .fewNumbers _ _ => "P003"
  | .extraneous _ => "P004"

/-- The text from a location to the end of its source. -/
def remainder (location : Location) : String :=
  String.ofList (Position.suffix location.source.toList location.offset)

def message : GrammarError → String
  | .leadingComma _ => "Number sequence must not start with comma"
  | .noNumbers token =>
    "Sequence must specify one or more numbers in number sequence: " ++
      Text.quoted token.location.source
  | .fewNumbers _ count =>
    "Invalid ellipsis: need at least three numbers before ellipsis, got " ++ toString count
  | .extraneous token =>
    "Found extraneous token in number sequence: " ++ Text.quoted (remainder token.location) ++
      ", " ++ grammarHelp

def help : GrammarError → String
  | .leadingComma _ => "Remove the leading comma"
  | .noNumbers _ => grammarHelp
  | .fewNumbers _ _ => "Add more numbers so the pattern can be determined"
  | .extraneous _ => grammarHelp

def diagnostic (error : GrammarError) : Diagnostic :=
  ⟨error.message, some error.token.location, "error", some error.code, some error.help⟩

end GrammarError

end Progressions
