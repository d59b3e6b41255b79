import Progressions.Token.Basic

/-!
# Specifications

A specification is the grammatical content of a token list: the tokens of its
numbers and, if it goes on, the ellipsis with an optional bound.  Its numbers and
its bound are what those tokens stand for.
-/

set_option autoImplicit false

namespace Progressions

/-- The end of a specification that goes on past its numbers. -/
structure Continuation where
  ellipsis : Token
  bound : Option Token

structure Specification where
  source : String
  terms : List Token
  continuation : Option Continuation

namespace Specification

/-- What the terms stand for.  A number token made by hand may stand for nothing: it is one of the
terms then, but not one of the numbers. -/
def numbers (specification : Specification) : List Number :=
  specification.terms.filterMap (·.value)

def hasEllipsis (specification : Specification) : Bool := specification.continuation.isSome

def bound (specification : Specification) : Option Number := do
  let continuation ← specification.continuation
  let token ← continuation.bound
  token.value

def ellipsisLocation (specification : Specification) : Option Location :=
  specification.continuation.map (·.ellipsis.location)

/-- The same source and ellipsis, and equal numbers and bounds. -/
def equals (left right : Specification) : Bool :=
  left.source == right.source && Number.allEqual left.numbers right.numbers &&
    left.hasEllipsis == right.hasEllipsis && Number.optionEqual left.bound right.bound &&
    decide (left.ellipsisLocation = right.ellipsisLocation)

end Specification

end Progressions
