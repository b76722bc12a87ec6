import DesignTokens.Json.Value
import DesignTokens.Json.Fault

/-!
# JSON numerals

Reading the numbers of a JSON text. An integer of 64 bits stays an integer. Any other numeral
becomes a float by a short computation in binary64: at most twenty significant digits are taken as
an integer, and the integer is multiplied or divided by one power of ten, both rounded. So a float
may differ in its last place from the nearest one.
-/

set_option autoImplicit false

namespace DesignTokens.Numeral

/-- Whether an octet is a digit. -/
def isDigit (b : UInt8) : Bool := 0x30 ≤ b && b ≤ 0x39

/-- The value of a digit. -/
def digitValue (b : UInt8) : Nat := b.toNat - 0x30

/-- The limit of the significant digits: an unsigned integer of 64 bits. -/
def significandLimit : Nat := Nat.pow 2 64

/-- The limit of a written exponent: a signed integer of 32 bits. -/
def exponentLimit : Nat := Nat.pow 2 31

/-- Appends digits to a significand while it stays below the limit. Gives the significand and the
number of digits left over. -/
def accumulate (significand : Nat) : List UInt8 → Nat × Nat
  | [] => (significand, 0)
  | d :: rest =>
      let next := significand * 10 + digitValue d
      -- Later digits are only counted, even if a smaller one would fit.
      if next < significandLimit then accumulate next rest else (significand, rest.length + 1)

/-- The value of a run of digits as an exponent, or the number of digits read when it passes the
limit. -/
def accumulateExponent (value count : Nat) : List UInt8 → Except Nat Nat
  | [] => .ok value
  | d :: rest =>
      let next := value * 10 + digitValue d
      if next < exponentLimit then accumulateExponent next (count + 1) rest else .error (count + 1)

/-! ## The float of a significand and an exponent -/

/-- The float nearest to a power of ten. -/
def powerOfTen? (n : Nat) : Option Magnitude := Magnitude.ofNat? (Nat.pow 10 n)

/-- The greatest power of ten below the largest float. -/
def maxPower : Nat := 308

theorem maxPower_pos : 0 < maxPower := Nat.succ_pos 307

/-- `x · 10 ^ -n`, by rounded divisions with powers of ten up to `10 ^ maxPower`. -/
def divideByTens? (x : Magnitude) (n : Nat) : Option Magnitude :=
  if n ≤ maxPower then (powerOfTen? n).bind x.div?
  else if x.isZero then some x
  else ((powerOfTen? maxPower).bind x.div?).bind fun y => divideByTens? y (n - maxPower)
termination_by n
decreasing_by
  have := maxPower_pos
  omega

/-- The float of `significand · 10 ^ exponent`; none if it is out of range. -/
def magnitude? (significand : Nat) (exponent : Int) : Option Magnitude :=
  (Magnitude.ofNat? significand).bind fun x =>
    if exponent < 0 then divideByTens? x exponent.natAbs
    else if exponent ≤ maxPower then (powerOfTen? exponent.toNat).bind x.mul?
    else if x.isZero then some x
    else none

/-! ## The parts of a numeral -/

/-- What goes wrong in a numeral, with the number of its octets up to that place. -/
structure Failure where
  fault : JsonFault
  offset : Nat

/-- A number with the length of its numeral. -/
abbrev Outcome := Except Failure (JsonNumber × Nat)

/-- The float of a sign, a significand and an exponent, at the end of a numeral. -/
def float (negative : Bool) (significand : Nat) (exponent : Int) (length : Nat) : Outcome :=
  match magnitude? significand exponent with
  | some x => .ok (.float ⟨negative, x⟩, length)
  | none => .error ⟨.numberOutOfRange, length⟩

/-- The number of a significand without fraction and exponent of which no digit is left over. -/
def integer (negative : Bool) (significand : Nat) (length : Nat) : Outcome :=
  if !negative then .ok (.integer significand, length)
  -- No integer keeps the sign of zero, and none of 64 bits is less than `-2 ^ 63`.
  else if significand = 0 || Nat.pow 2 63 < significand then float true significand 0 length
  else .ok (.integer (-(significand : Int)), length)

/-- A numeral from the digits of its exponent on. `offset` octets have been read. -/
def exponentDigits (negative : Bool) (significand : Nat) (exponent : Int) (negativeExponent : Bool)
    (offset : Nat) (rest : List UInt8) : Outcome :=
  match rest with
  | [] => .error ⟨.endInValue, offset⟩
  | d :: _ =>
      if isDigit d then
        let digits := rest.takeWhile isDigit
        let length := offset + digits.length
        match accumulateExponent 0 0 digits with
        | .ok written =>
            float negative significand
              (if negativeExponent then exponent - written else exponent + written) length
        | .error count =>
            -- The exponent is beyond all limits: nothing but zero is left, unless it is too large.
            if significand ≠ 0 && !negativeExponent then
              .error ⟨.numberOutOfRange, offset + count⟩
            else .ok (.float ⟨negative, .zero⟩, length)
      else .error ⟨.invalidNumber, offset + 1⟩

/-- A numeral from its exponent on, after the letter of the exponent. -/
def exponentPart (negative : Bool) (significand : Nat) (exponent : Int) (offset : Nat)
    (rest : List UInt8) : Outcome :=
  match rest with
  | 0x2B :: digits => exponentDigits negative significand exponent false (offset + 1) digits
  | 0x2D :: digits => exponentDigits negative significand exponent true (offset + 1) digits
  | digits => exponentDigits negative significand exponent false offset digits

/-- Whether an octet is the letter of an exponent. -/
def isExponentLetter (b : UInt8) : Bool := b == 0x65 || b == 0x45

/-- A numeral from its fraction on, after the point. -/
def fractionPart (negative : Bool) (significand : Nat) (exponent : Int) (offset : Nat)
    (rest : List UInt8) : Outcome :=
  let digits := rest.takeWhile isDigit
  let after := rest.dropWhile isDigit
  if digits.isEmpty then
    match after with
    | [] => .error ⟨.endInValue, offset⟩
    | _ => .error ⟨.invalidNumber, offset + 1⟩
  else
    let (total, left) := accumulate significand digits
    let scaled := exponent - (digits.length - left : Nat)
    match after with
    | b :: tail =>
        if isExponentLetter b then
          exponentPart negative total scaled (offset + digits.length + 1) tail
        else float negative total scaled (offset + digits.length)
    | [] => float negative total scaled (offset + digits.length)

/-- A numeral after the digits of its integer part, of which `left` are left over. -/
def afterInteger (negative : Bool) (significand left offset : Nat) (rest : List UInt8) : Outcome :=
  match rest with
  | b :: tail =>
      if b == 0x2E then fractionPart negative significand left (offset + 1) tail
      else if isExponentLetter b then exponentPart negative significand left (offset + 1) tail
      else if left = 0 then integer negative significand offset
      else float negative significand left offset
  | [] =>
      if left = 0 then integer negative significand offset
      else float negative significand left offset

/-- A numeral after its sign. -/
def unsigned (negative : Bool) (offset : Nat) (rest : List UInt8) : Outcome :=
  match rest with
  | [] => .error ⟨.endInValue, offset⟩
  | d :: tail =>
      if d == 0x30 then
        match tail with
        | e :: _ =>
            if isDigit e then .error ⟨.invalidNumber, offset + 2⟩
            else afterInteger negative 0 0 (offset + 1) tail
        | [] => afterInteger negative 0 0 (offset + 1) tail
      else if isDigit d then
        let digits := rest.takeWhile isDigit
        let (significand, left) := accumulate 0 digits
        afterInteger negative significand left (offset + digits.length) (rest.dropWhile isDigit)
      else .error ⟨.invalidNumber, offset + 1⟩

/-- Reads the numeral at the start of an octet string. -/
def read : List UInt8 → Outcome
  | 0x2D :: rest => unsigned true 1 rest
  | bytes => unsigned false 0 bytes

end DesignTokens.Numeral
