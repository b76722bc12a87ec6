/-!
# Faults of JSON texts

What can be wrong with a JSON text, the wording for it, and the line and column of the place.
-/

set_option autoImplicit false

namespace DesignTokens

/-- What is wrong with a JSON text. -/
inductive JsonFault where
  | endInValue
  | endInList
  | endInObject
  | endInString
  | expectedValue
  | expectedIdentifier
  | keyNotString
  | expectedColon
  | expectedCommaOrBracket
  | expectedCommaOrBrace
  | trailingComma
  | trailingCharacters
  | invalidNumber
  | numberOutOfRange
  | controlCharacter
  | invalidEscape
  | loneSurrogate
  | endInEscape
  | notUnicode
  | tooDeep
deriving DecidableEq, Repr

/-- The wording for a fault. -/
def JsonFault.message : JsonFault → String
  | .endInValue => "EOF while parsing a value"
  | .endInList => "EOF while parsing a list"
  | .endInObject => "EOF while parsing an object"
  | .endInString => "EOF while parsing a string"
  | .expectedValue => "expected value"
  | .expectedIdentifier => "expected ident"
  | .keyNotString => "key must be a string"
  | .expectedColon => "expected `:`"
  | .expectedCommaOrBracket => "expected `,` or `]`"
  | .expectedCommaOrBrace => "expected `,` or `\x7d`"
  | .trailingComma => "trailing comma"
  | .trailingCharacters => "trailing characters"
  | .invalidNumber => "invalid number"
  | .numberOutOfRange => "number out of range"
  | .controlCharacter => "control character (\\u0000-\\u001F) found while parsing a string"
  | .invalidEscape => "invalid escape"
  | .loneSurrogate => "lone leading surrogate in hex escape"
  | .endInEscape => "unexpected end of hex escape"
  | .notUnicode => "invalid unicode code point"
  | .tooDeep => "recursion limit exceeded"

/-- A fault with the number of octets before its place. A place inside a decoded string is given
by the end of the string and the number of columns to go back from it. -/
structure JsonFlaw where
  fault : JsonFault
  position : Nat
  back : Nat := 0
deriving DecidableEq, Repr

/-- A fault with the line and column of its place. -/
structure JsonError where
  fault : JsonFault
  line : Nat
  column : Nat
deriving DecidableEq, Repr

/-- The sentence shown for an error. -/
def JsonError.message (e : JsonError) : String :=
  e.fault.message ++ " at line " ++ toString e.line ++ " column " ++ toString e.column

/-- Whether an octet is a line feed. -/
def isLineFeed (b : UInt8) : Bool := b == 0x0A

/-- The line and column of a flaw in an octet string: lines count from one, and the column is the
number of octets since the last line feed. -/
def JsonFlaw.locate (flaw : JsonFlaw) (bytes : List UInt8) : JsonError :=
  let before := bytes.take flaw.position
  let sinceLineFeed := before.reverse.takeWhile (!isLineFeed ·)
  ⟨flaw.fault, 1 + before.countP isLineFeed, sinceLineFeed.length - flaw.back⟩

end DesignTokens
