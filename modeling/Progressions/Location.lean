import Progressions.Text.Quoted

/-!
# Locations

A location names a place in a specification: the specification itself, the column
counted from one and the offset counted from zero, both in characters.  Tokens of a
specification stand inside it; a location put together by hand may lie before it.
-/

set_option autoImplicit false

namespace Progressions

structure Location where
  source : String
  column : Int
  offset : Int
deriving DecidableEq

namespace Location

/-- The place before the character at an offset. -/
def ofOffset (source : String) (offset : Int) : Location := ⟨source, offset + 1, offset⟩

/-- The short form of reports. -/
def brief (location : Location) : String :=
  Text.quoted location.source ++ ":" ++ toString location.column

def display (location : Location) : String :=
  "SourceLocation(" ++ Text.quoted location.source ++ ", " ++ toString location.column ++ ", " ++
    toString location.offset ++ ")"

end Location

end Progressions
