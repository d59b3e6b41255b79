/-!
# Positions

A position counts the items of a list from the front, starting at zero, or, below
zero, from the end: minus one is the last item.  On a position from the front,
`item?` and `suffix` are the usual look-up and the usual rest.
-/

set_option autoImplicit false

namespace Progressions.Position

variable {α : Type}

/-- The item at a position, if there is one. -/
def item? (items : List α) : Int → Option α
  | .ofNat place => items[place]?
  | .negSucc back => items.reverse[back]?

/-- The items from a position on; all of them if it lies before the first. -/
def suffix (items : List α) : Int → List α
  | .ofNat place => items.drop place
  | .negSucc back => items.drop (items.length - (back + 1))

@[simp] theorem item?_natCast (items : List α) (place : Nat) :
    item? items (place : Int) = items[place]? := rfl

@[simp] theorem suffix_natCast (items : List α) (place : Nat) :
    suffix items (place : Int) = items.drop place := rfl

end Progressions.Position
