import Progressions.Number.Binary64

/-!
# Shortest decimal digits

The digits written for a magnitude are the fewest that read back as it, and the
nearest to it among those; an exact tie goes to the even digit.

A magnitude of `u` units is exactly `5¹⁰⁷⁴ · u` times `10⁻¹⁰⁷⁴`, so its decimal
neighbours on every grid `10ᵏ` are found in whole numbers.  The search goes from
a grid at least as coarse as the first digit to the finest; the grid `10⁰` holds
the magnitude itself, so it always ends with digits that read back.
-/

set_option autoImplicit false

namespace Progressions

/-- What a count of units is multiplied by to count in steps of `10 ^ (-1074)`. -/
def decimalScale : Nat := Nat.pow 5 1074

def decimalPlaces : Nat := 1074

/-- The digits of a positive number `0.d₁d₂… · 10 ^ point`. -/
structure DecimalDigits where
  digits : List Char
  point : Int

namespace Magnitude

/-- The exact value in steps of `10 ^ (-1074)`. -/
def coefficient (magnitude : Magnitude) : Nat := decimalScale * magnitude.units

/-- A decimal coefficient in steps of `10 ^ (-1074)` reads as this magnitude. -/
def readsBack (magnitude : Magnitude) (coefficient : Nat) : Bool :=
  nearestUnits coefficient decimalScale == magnitude.units

/-- The neighbour on a grid that reads back, counted in grid steps: the nearer one if both do. -/
def onGrid? (magnitude : Magnitude) (grid : Nat) : Option Nat :=
  let low := magnitude.coefficient / grid
  let excess := magnitude.coefficient % grid
  if excess = 0 then some low
  else
    match magnitude.readsBack (low * grid), magnitude.readsBack ((low + 1) * grid) with
    | true, true =>
      if 2 * excess < grid ∨ (2 * excess = grid ∧ low % 2 = 0) then some low else some (low + 1)
    | true, false => some low
    | false, true => some (low + 1)
    | false, false => none

/-- The first neighbour that reads back on the grids `10 ^ power`, `10 ^ (power - 1)`, …, with
the power of its grid. -/
def coarsestFrom (magnitude : Magnitude) : Nat → Nat × Nat
  | 0 => (magnitude.coefficient, 0)
  | power + 1 =>
    match magnitude.onGrid? (Nat.pow 10 (power + 1)) with
    | some steps => (steps, power + 1)
    | none => magnitude.coarsestFrom power

/-- A power of ten with at least as many digits as the coefficient.  A binary digit is less than
`28 / 93` of a decimal one, since `2 ^ 93 < 10 ^ 28`. -/
def leadingPower (magnitude : Magnitude) : Nat :=
  magnitude.coefficient.log2 * 28 / 93 + 1

def trimZeros (digits : List Char) : List Char :=
  (digits.reverse.dropWhile (· == '0')).reverse

def shortest (magnitude : Magnitude) : DecimalDigits :=
  if magnitude.units = 0 then ⟨['0'], 1⟩
  else
    let (steps, power) := magnitude.coarsestFrom magnitude.leadingPower
    let digits := Nat.toDigits 10 steps
    ⟨trimZeros digits, (digits.length + power : Int) - decimalPlaces⟩

end Magnitude

end Progressions
