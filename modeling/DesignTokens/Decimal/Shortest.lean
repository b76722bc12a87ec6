import DesignTokens.Binary64

/-!
# Shortest decimals

The shortest decimal that reads back as a given binary64 magnitude. For one, two, and up to
seventeen digits, the two neighbours of the magnitude on that decimal grid are tried; the first
grid on which a neighbour lies in the interval that rounds to the magnitude gives the digits, and
of two such neighbours the nearer one is taken. If both are equally near, the format that is
written decides.
-/

set_option autoImplicit false

namespace DesignTokens

/-- A positive decimal `d.ddd · 10 ^ exponent`, by its digit characters. The first digit is not
zero, and neither is the last unless it is the only one. -/
structure Decimal where
  digits : List Char
  exponent : Int
deriving DecidableEq, Repr

namespace Decimal

/-- Which of two equally near decimals is taken. -/
inductive Tie where
  | even
  | up
deriving DecidableEq, Repr

/-- The digits without the zeros at their end. -/
def trimZeros (digits : List Char) : List Char :=
  (digits.reverse.dropWhile (· == '0')).reverse

/-- The decimal `n · 10 ^ k`. -/
def ofScaled (n : Nat) (k : Int) : Decimal :=
  let digits := Nat.toDigits 10 n
  ⟨trimZeros digits, k + digits.length - 1⟩

/-- The greatest `e` with `10 ^ e ≤ num / den`, for a positive quotient. -/
def leadingExponent (num den : Nat) : Int :=
  if den ≤ num then ((Nat.toDigits 10 (num / den)).length : Int) - 1
  else -((Nat.toDigits 10 ((den + num - 1) / num - 1)).length : Int)

/-- The interval of quotients that round to a magnitude, over the denominator
`4 · unitsPerOne`; its ends belong to it if the significand is even. -/
structure Interval where
  low : Nat
  value : Nat
  high : Nat
  closed : Bool

/-- The denominator of the ends of an `Interval`. -/
def Interval.denominator : Nat := 4 * Magnitude.unitsPerOne

/-- The interval that rounds to a magnitude. Below a power of two the numbers lie twice as close
as above it. -/
def Interval.ofMagnitude (x : Magnitude) : Interval :=
  let half := 2 * Nat.pow 2 x.scale
  -- At scale zero there is no lower scale on which the numbers would lie closer.
  let below := if x.significand = Nat.pow 2 52 ∧ x.scale ≠ 0 then Nat.pow 2 x.scale else half
  ⟨4 * x.units - below, 4 * x.units, 4 * x.units + half, x.significand % 2 == 0⟩

/-- Whether `n / den` lies in an interval whose ends are multiplied by `up`. -/
def Interval.contains (i : Interval) (up n : Nat) : Bool :=
  if i.closed then i.low * up ≤ n && n ≤ i.high * up else i.low * up < n && n < i.high * up

/-- The multiple of `10 ^ k` in an interval that is next to its value, if there is one. -/
def onGrid? (tie : Tie) (i : Interval) (k : Int) : Option Nat :=
  let up := Nat.pow 10 (-k).toNat
  let step := Nat.pow 10 k.toNat * Interval.denominator
  let below := i.value * up / step
  let above := below + 1
  match i.contains up (below * step), i.contains up (above * step) with
  | true, true =>
      let down := i.value * up - below * step
      let rise := above * step - i.value * up
      -- Both read back, and the nearer one is the better.
      if down < rise then some below
      else if rise < down then some above
      else match tie with
        | .even => if below % 2 == 0 then some below else some above
        | .up => some above
  | true, false => some below
  | false, true => some above
  | false, false => none

/-- The shortest decimal that reads back as a magnitude, for a magnitude that is not zero. -/
def shortest (tie : Tie) (x : Magnitude) : Decimal :=
  let i := Interval.ofMagnitude x
  let e := leadingExponent i.value Interval.denominator
  let found := (List.range 17).findSome? fun (n : Nat) =>
    (onGrid? tie i (e - n)).map fun multiple => ofScaled multiple (e - n)
  -- Seventeen digits tell all numbers apart, so that one of the grids has a hit.
  found.getD (ofScaled
    (i.value * Nat.pow 10 (16 - e).toNat / (Nat.pow 10 (e - 16).toNat * Interval.denominator))
    (e - 16))

end Decimal

end DesignTokens
