/-!
# UTF-8

The octets of a text, how much of an octet string is well-formed UTF-8, the text of an octet string
that is, and the text that is shown for one that may not be.
-/

set_option autoImplicit false

namespace DesignTokens.Utf8

/-- The octets of a text: those of its characters, one after another. -/
def octets (text : String) : List UInt8 := text.toList.flatMap String.utf8EncodeChar

/-- Whether an octet continues a character. -/
def isContinuation (b : UInt8) : Bool := 0x80 ≤ b && b ≤ 0xBF

/-- The number of octets of the character at the start, if a well-formed one stands there. -/
def firstLength? : List UInt8 → Option Nat
  | [] => none
  | a :: rest =>
      if a < 0x80 then some 1
      else if 0xC2 ≤ a && a ≤ 0xDF then
        match rest with
        | b :: _ => if isContinuation b then some 2 else none
        | _ => none
      else if 0xE0 ≤ a && a ≤ 0xEF then
        match rest with
        | b :: c :: _ =>
            let low : UInt8 := if a = 0xE0 then 0xA0 else 0x80
            let high : UInt8 := if a = 0xED then 0x9F else 0xBF
            if low ≤ b && b ≤ high && isContinuation c then some 3 else none
        | _ => none
      else if 0xF0 ≤ a && a ≤ 0xF4 then
        match rest with
        | b :: c :: d :: _ =>
            let low : UInt8 := if a = 0xF0 then 0x90 else 0x80
            let high : UInt8 := if a = 0xF4 then 0x8F else 0xBF
            if low ≤ b && b ≤ high && isContinuation c && isContinuation d then some 4 else none
        | _ => none
      else none

/-- The number of octets up to the first ill-formed place, when `skip` octets of a character that
has been recognised are still to pass. -/
def validLengthFrom : Nat → List UInt8 → Nat
  | _, [] => 0
  | skip + 1, _ :: rest => 1 + validLengthFrom skip rest
  | 0, b :: rest =>
      match firstLength? (b :: rest) with
      | some n => 1 + validLengthFrom (n - 1) rest
      | none => 0

/-- The number of octets up to the first ill-formed place, or to the end. -/
def validLength (bytes : List UInt8) : Nat := validLengthFrom 0 bytes

/-- The text of an octet string, if all of it is well-formed. -/
def decode? (bytes : List UInt8) : Option String := String.fromUTF8? ⟨bytes.toArray⟩

/-! ## Showing octets -/

/-- Whether octets are the start of a well-formed character that has more of them. -/
def isCharacterStart (bytes : List UInt8) : Bool :=
  (firstLength? (bytes ++ [0x80, 0x80])).any fun n => bytes.length < n

/-- The number of octets of the ill-formed part at the start: those that are the start of a
character, or else a single one. -/
def illFormedLength (bytes : List UInt8) : Nat :=
  if isCharacterStart (bytes.take 3) then 3
  else if isCharacterStart (bytes.take 2) then 2
  else 1

/-- What stands for an ill-formed part where octets are shown. -/
def replacement : String := "\uFFFD"

/-- Octets with each ill-formed part replaced, when `skip` octets of a part that has been dealt with are
still to pass. -/
def replaceFrom : Nat → List UInt8 → String
  | _, [] => ""
  | skip + 1, _ :: rest => replaceFrom skip rest
  | 0, b :: rest =>
      match firstLength? (b :: rest) with
      | some n => (decode? ((b :: rest).take n)).getD "" ++ replaceFrom (n - 1) rest
      | none => replacement ++ replaceFrom (illFormedLength (b :: rest) - 1) rest

/-- The text that is shown for octets: the text they are, or else one with each ill-formed part
replaced. -/
def shown (bytes : List UInt8) : String := (decode? bytes).getD (replaceFrom 0 bytes)

end DesignTokens.Utf8
