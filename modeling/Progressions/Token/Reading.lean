import Progressions.Position
import Progressions.Token.Lexeme

/-!
# Reading tokens

Reading cuts lexeme after lexeme off a specification and ends with the token that
stands after the last character.  It stops early only at an integer literal with
too many digits.

A `Scanner` keeps a position and the tokens of its last complete reading, and can
also be asked for a single token.
-/

set_option autoImplicit false

namespace Progressions

/-- What reading tokens gave: the tokens, the offset where it stopped, and what stopped it. -/
structure Reading where
  tokens : List Token
  stop : Nat
  error : Option NumberError

namespace Token

def ofPiece (source : String) (offset : Int) (piece : Lexeme.Piece) (value : Option Number) :
    Token :=
  ⟨piece.kind, String.ofList piece.lexeme, value, .ofOffset source offset⟩

/-- The tokens of `text`, which is what stands in the source from the offset on. -/
def read (source : String) (offset : Nat) (text : List Char) : Reading :=
  if text = [] then ⟨[atEnd source offset], offset, none⟩
  else
    let piece := Lexeme.cut text
    match piece.value with
    | .error cause => ⟨[], offset, some cause⟩
    | .ok value =>
      let later := read source (offset + piece.lexeme.length) piece.rest
      ⟨ofPiece source offset piece value :: later.tokens, later.stop, later.error⟩
termination_by text.length
decreasing_by exact Lexeme.length_cut_rest_lt ‹_›

end Token

/-- The tokens of a specification. -/
def tokenize (source : String) : Except NumberError (List Token) :=
  let reading := Token.read source 0 source.toList
  match reading.error with
  | some cause => .error cause
  | none => .ok reading.tokens

structure Scanner where
  source : String
  position : Int
  tokens : List Token

namespace Scanner

def ofSource (source : String) : Scanner := ⟨source, 0, []⟩

def seek (scanner : Scanner) (position : Int) : Scanner := { scanner with position := position }

/-- The piece at a position.  Before the source the ellipsis and what is invalid are looked for
at the position counted from the end, and all else at the front. -/
def piece (scanner : Scanner) : Lexeme.Piece :=
  let text := scanner.source.toList
  let rest := Position.suffix text scanner.position
  if scanner.position < 0 then Lexeme.cutApart text rest else Lexeme.cut rest

/-- One token from the position on, which moves behind it.  At the end of the source it is
invalid and empty. -/
def next (scanner : Scanner) : Except NumberError Token × Scanner :=
  let piece := scanner.piece
  match piece.value with
  | .error cause => (.error cause, scanner)
  | .ok value =>
    (.ok (Token.ofPiece scanner.source scanner.position piece value),
      scanner.seek (scanner.position + piece.lexeme.length))

/-- All tokens of the source, which replace those kept. -/
def readAll (scanner : Scanner) : Except NumberError (List Token) × Scanner :=
  let reading := Token.read scanner.source 0 scanner.source.toList
  let after : Scanner := ⟨scanner.source, reading.stop, reading.tokens⟩
  match reading.error with
  | some cause => (.error cause, after)
  | none => (.ok reading.tokens, after)

end Scanner

end Progressions
