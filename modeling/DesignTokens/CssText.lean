import DesignTokens.Json.Printer

/-!
# Values as CSS text

The text of a value in a declaration. Strings stand verbatim; numbers have all their places and no
exponent, since CSS custom properties are compared as text. Null, arrays and objects have no text.
-/

set_option autoImplicit false

namespace DesignTokens

namespace JsonNumber

/-- CSS writes all places of a number, and a fraction only where there is one. -/
def cssLayout : Decimal.Layout where
  isPositional _ := true
  wholeEnd := []
  tie := .up

/-- The characters of a number in a declaration. Zero has no sign. -/
def cssChars : JsonNumber → List Char
  | .integer n => integerChars n
  | .float x =>
      if x.magnitude.isZero then ['0']
      else
        let digits := Decimal.renderMagnitude cssLayout x.magnitude
        if x.negative then '-' :: digits else digits

/-- The text of a number in a declaration. -/
def cssText (n : JsonNumber) : String := String.ofList n.cssChars

end JsonNumber

namespace Json

/-- The text of a value in a declaration; none for null, arrays and objects. -/
def cssText? : Json → Option String
  | .string text => some text
  | .number n => some n.cssText
  | .bool true => some "true"
  | .bool false => some "false"
  | .null => none
  | .array _ => none
  | .object _ => none

/-- The values that can stand in a declaration. -/
theorem exists_cssText?_iff (value : Json) :
    (∃ text, value.cssText? = some text) ↔
      value.kind = .string ∨ value.kind = .number ∨ value.kind = .boolean := by
  cases value with
  | bool b => cases b <;> simp [cssText?, kind]
  | _ => simp [cssText?, kind]

end Json

end DesignTokens
