import DesignTokens.Decimal.Shortest

/-!
# Decimal layouts

How a decimal is laid out as text: with all its places, or with its leading digit, a point and an
exponent. A `Layout` holds the choices of one written format.
-/

set_option autoImplicit false

namespace DesignTokens

namespace Decimal

/-- The choices of a written format for decimals. -/
structure Layout where
  /-- Whether an exponent is written with all places. -/
  isPositional : Int → Bool
  /-- What follows the digits of a whole number that is written with all places. -/
  wholeEnd : List Char
  /-- Which of two equally short and equally near decimals stands for a number. -/
  tie : Tie

/-- All places of a decimal, with a point only before a fraction. -/
def positional (wholeEnd : List Char) (d : Decimal) : List Char :=
  if d.exponent < 0 then
    -- All digits stand after the point, the first of them at place `-exponent`.
    '0' :: '.' :: List.replicate (-d.exponent - 1).toNat '0' ++ d.digits
  else
    -- The number of digits before the point.
    let whole := d.exponent.toNat + 1
    if d.digits.length ≤ whole then
      d.digits ++ List.replicate (whole - d.digits.length) '0' ++ wholeEnd
    else d.digits.take whole ++ '.' :: d.digits.drop whole

/-- The leading digit, the others after a point, and the exponent with its sign. -/
def scientific (d : Decimal) : List Char :=
  let fraction := d.digits.drop 1
  d.digits.take 1 ++ (if fraction.isEmpty then [] else '.' :: fraction) ++
    'e' :: (if d.exponent < 0 then '-' else '+') :: Nat.toDigits 10 d.exponent.natAbs

/-- A decimal in a layout. -/
def render (layout : Layout) (d : Decimal) : List Char :=
  if layout.isPositional d.exponent then d.positional layout.wholeEnd else d.scientific

/-- The shortest decimal of a magnitude, in a layout. -/
def renderMagnitude (layout : Layout) (x : Magnitude) : List Char :=
  if x.isZero then '0' :: layout.wholeEnd else (shortest layout.tie x).render layout

end Decimal

end DesignTokens
