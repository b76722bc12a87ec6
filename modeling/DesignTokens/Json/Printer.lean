import DesignTokens.Json.Value
import DesignTokens.Decimal.Layout

/-!
# Printing JSON

The compact text of a JSON value, and the text with one member a line. Strings are escaped as
little as JSON allows, members stand in their order, and a float is the shortest decimal that reads
back, with a fraction or an exponent so that it stays a float.
-/

set_option autoImplicit false

namespace DesignTokens

namespace JsonNumber

/-- JSON writes all places of a float between `0.00001` and `10 ^ 16`, and an exponent beyond. -/
def layout : Decimal.Layout where
  isPositional e := decide (-5 ≤ e) && decide (e ≤ 15)
  wholeEnd := ['.', '0']
  tie := .even

/-- The digits of an integer, after its sign. -/
def integerChars (n : Int) : List Char :=
  if n < 0 then '-' :: Nat.toDigits 10 n.natAbs else Nat.toDigits 10 n.natAbs

/-- The text of a number in a JSON text. -/
def render : JsonNumber → List Char
  | .integer n => integerChars n
  | .float x =>
      let digits := Decimal.renderMagnitude layout x.magnitude
      if x.negative then '-' :: digits else digits

end JsonNumber

namespace Json

/-- A hexadecimal digit in lower case. -/
def hexDigit (n : Nat) : Char := (Nat.toDigits 16 (n % 16)).headD '0'

/-- A character within the quotes of a string. -/
def escapeChar (c : Char) : List Char :=
  match c with
  | '"' => ['\\', '"']
  | '\\' => ['\\', '\\']
  | '\x08' => ['\\', 'b']
  | '\x0c' => ['\\', 'f']
  | '\n' => ['\\', 'n']
  | '\r' => ['\\', 'r']
  | '\t' => ['\\', 't']
  | c =>
      if c.toNat < 0x20 then
        ['\\', 'u', '0', '0', hexDigit (c.toNat / 16), hexDigit c.toNat]
      else [c]

/-- A text as a JSON string. -/
def quote (text : String) : List Char := '"' :: text.toList.flatMap escapeChar ++ ['"']

/-! ## Compact text -/

mutual

/-- The text of a value without blanks. -/
def compactChars : Json → List Char
  | .null => "null".toList
  | .bool value => (if value then "true" else "false").toList
  | .number value => value.render
  | .string text => quote text
  | .array items => '[' :: compactItems items
  | .object members => '\x7b' :: compactMembers members
termination_by structural value => value

/-- The items of an array up to its closing bracket. -/
def compactItems : List Json → List Char
  | [] => [']']
  | item :: rest =>
      item.compactChars ++ (if rest.isEmpty then [] else [',']) ++ compactItems rest
termination_by structural items => items

/-- The members of an object up to its closing brace. -/
def compactMembers : List (String × Json) → List Char
  | [] => ['\x7d']
  | (key, value) :: rest =>
      quote key ++ ':' :: value.compactChars ++ (if rest.isEmpty then [] else [',']) ++
        compactMembers rest
termination_by structural members => members

end

/-- The text of a value without blanks. -/
def compact (value : Json) : String := String.ofList value.compactChars

/-! ## Indented text -/

/-- A line break and the blanks of a nesting depth, two for each level. -/
def newline (depth : Nat) : List Char := '\n' :: List.replicate (2 * depth) ' '

mutual

/-- The text of a value at a nesting depth, with a line for each item and member. -/
def prettyChars (depth : Nat) : Json → List Char
  | .null => "null".toList
  | .bool value => (if value then "true" else "false").toList
  | .number value => value.render
  | .string text => quote text
  | .array items => if items.isEmpty then ['[', ']'] else '[' :: prettyItems depth items
  | .object members =>
      if members.isEmpty then ['\x7b', '\x7d'] else '\x7b' :: prettyMembers depth members
termination_by structural value => value

/-- The lines of an array's items and its closing bracket. -/
def prettyItems (depth : Nat) : List Json → List Char
  | [] => newline depth ++ [']']
  | item :: rest =>
      newline (depth + 1) ++ item.prettyChars (depth + 1) ++
        (if rest.isEmpty then [] else [',']) ++ prettyItems depth rest
termination_by structural items => items

/-- The lines of an object's members and its closing brace. -/
def prettyMembers (depth : Nat) : List (String × Json) → List Char
  | [] => newline depth ++ ['\x7d']
  | (key, value) :: rest =>
      newline (depth + 1) ++ quote key ++ ':' :: ' ' :: value.prettyChars (depth + 1) ++
        (if rest.isEmpty then [] else [',']) ++ prettyMembers depth rest
termination_by structural members => members

end

/-- The text of a value with a line for each item and member, indented by two blanks a level. -/
def pretty (value : Json) : String := String.ofList (value.prettyChars 0)

end Json

end DesignTokens
