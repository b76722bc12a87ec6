/-!
# Binary64 numbers

The finite numbers of the format binary64, with exact arithmetic on natural numbers. A
magnitude is `significand · 2 ^ scale` units of `2 ^ -1074`, the smallest positive number, and
every operation rounds its exact result to the nearest number, a tie to the even significand.
-/

set_option autoImplicit false

namespace DesignTokens

/-- A finite magnitude: `significand · 2 ^ scale / 2 ^ 1074`. The significand is below `2 ^ 53`,
and at least `2 ^ 52` unless the scale is zero. -/
structure Magnitude where
  significand : Nat
  scale : Nat
deriving DecidableEq, Repr

/-- A finite binary64 number, with its sign also for zero. -/
structure Binary64 where
  negative : Bool
  magnitude : Magnitude
deriving DecidableEq, Repr

namespace Magnitude

/-- How many of the smallest positive number make up one. -/
def unitsPerOne : Nat := Nat.pow 2 1074

/-- The scale of the largest numbers. -/
def maxScale : Nat := 2045

/-- The magnitude in units of the smallest positive number. -/
def units (x : Magnitude) : Nat := x.significand * Nat.pow 2 x.scale

/-- Whether the magnitude is zero. -/
def isZero (x : Magnitude) : Bool := x.significand == 0

/-- Zero. -/
def zero : Magnitude := ⟨0, 0⟩

/-- The natural number nearest to a quotient, a tie to the even one. -/
def roundQuotient (num den : Nat) : Nat :=
  let q := num / den
  let r := num % den
  if den < 2 * r || (den == 2 * r && q % 2 == 1) then q + 1 else q

/-- The magnitude nearest to a quotient; none if that is beyond the largest number. -/
def ofQuotient? (num den : Nat) : Option Magnitude :=
  let total := num * unitsPerOne
  -- At this scale the quotient has 53 binary digits; at scale zero it may have fewer.
  let scale := (total / den).log2 + 1 - 53
  let significand := roundQuotient total (den * Nat.pow 2 scale)
  let rounded : Magnitude :=
    -- Rounding up may carry into one more digit.
    if significand = Nat.pow 2 53 then ⟨Nat.pow 2 52, scale + 1⟩ else ⟨significand, scale⟩
  if rounded.scale ≤ maxScale then some rounded else none

/-- The magnitude nearest to a natural number. -/
def ofNat? (n : Nat) : Option Magnitude := ofQuotient? n 1

/-- The rounded product. -/
def mul? (x y : Magnitude) : Option Magnitude :=
  ofQuotient? (x.units * y.units) (unitsPerOne * unitsPerOne)

/-- The rounded quotient. -/
def div? (x y : Magnitude) : Option Magnitude := ofQuotient? x.units y.units

end Magnitude

end DesignTokens
