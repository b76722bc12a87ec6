import DesignTokens.Json.Numeral
import DesignTokens.Text.Utf8

/-!
# Tokens of a JSON text

A JSON text as a sequence of tokens: punctuation, strings, and values without parts. A place where
no token can be read becomes a `bad` token, which the reader reports if a value or a key is due
there.

A string or number may have an end and yet no value: a string with half of a surrogate pair, or a
number that is out of range. The text is read on after such a token, and `JsonLexeme.skim` puts a
value in its place for a reader that passes over it.
-/

set_option autoImplicit false

namespace DesignTokens

/-- A token of a JSON text. -/
inductive JsonToken where
  | openArray
  | closeArray
  | openObject
  | closeObject
  | comma
  | colon
  | string (text : String)
  | scalar (value : Json)
  /-- A string that cannot be read. -/
  | badString (flaw : JsonFlaw) (ends : Bool)
  /-- Anything else that cannot be read. -/
  | bad (flaw : JsonFlaw) (ends : Bool)

/-- A token with the number of octets before it. -/
structure JsonLexeme where
  token : JsonToken
  position : Nat

namespace JsonToken

/-! ## Strings -/

/-- The value of a hexadecimal digit. -/
def hexValue? (b : UInt8) : Option Nat :=
  if 0x30 ≤ b && b ≤ 0x39 then some (b.toNat - 0x30)
  else if 0x41 ≤ b && b ≤ 0x46 then some (b.toNat - 0x37)
  else if 0x61 ≤ b && b ≤ 0x66 then some (b.toNat - 0x57)
  else none

/-- The value of the four hexadecimal digits at the start. `offset` octets come before them. -/
def fourHexDigits (offset : Nat) : List UInt8 → Except Numeral.Failure Nat
  | a :: b :: c :: d :: _ =>
      match hexValue? a, hexValue? b, hexValue? c, hexValue? d with
      | some w, some x, some y, some z => .ok (w * 4096 + x * 256 + y * 16 + z)
      | _, _, _, _ => .error ⟨.invalidEscape, offset + 4⟩
  | short => .error ⟨.endInString, offset + short.length⟩

/-- Whether a code unit is the first of a surrogate pair. -/
def isHighSurrogate (n : Nat) : Bool := 0xD800 ≤ n && n ≤ 0xDBFF

/-- Whether a code unit is the second of a surrogate pair. -/
def isLowSurrogate (n : Nat) : Bool := 0xDC00 ≤ n && n ≤ 0xDFFF

/-- The octets of a code point, with the number of octets that its escape takes. -/
def codePoint (n length : Nat) : List UInt8 × Nat := (String.utf8EncodeChar (Char.ofNat n), length)

/-- The character of an escape after its `u`, and the length of the escape after the backslash. A
character beyond sixteen bits takes two escapes. -/
def unicodeEscape (rest : List UInt8) : Except Numeral.Failure (List UInt8 × Nat) := do
  let first ← fourHexDigits 1 rest
  if isLowSurrogate first then throw ⟨.loneSurrogate, 5⟩
  if !isHighSurrogate first then return codePoint first 5
  -- The first half of a pair: the second half has to follow at once.
  match rest.drop 4 with
  | [] => throw ⟨.endInString, 5⟩
  | 0x5C :: 0x75 :: tail =>
      let second ← fourHexDigits 7 tail
      if isLowSurrogate second then
        return codePoint (0x10000 + (first - 0xD800) * 0x400 + (second - 0xDC00)) 11
      else throw ⟨.loneSurrogate, 11⟩
  | [0x5C] => throw ⟨.endInString, 6⟩
  | 0x5C :: _ => throw ⟨.endInEscape, 7⟩
  | _ => throw ⟨.endInEscape, 6⟩

/-- The octets of an escape after its backslash, and its length after the backslash. -/
def escape : List UInt8 → Except Numeral.Failure (List UInt8 × Nat)
  | [] => .error ⟨.endInString, 0⟩
  | 0x22 :: _ => .ok ([0x22], 1)
  | 0x5C :: _ => .ok ([0x5C], 1)
  | 0x2F :: _ => .ok ([0x2F], 1)
  | 0x62 :: _ => .ok ([0x08], 1)
  | 0x66 :: _ => .ok ([0x0C], 1)
  | 0x6E :: _ => .ok ([0x0A], 1)
  | 0x72 :: _ => .ok ([0x0D], 1)
  | 0x74 :: _ => .ok ([0x09], 1)
  | 0x75 :: rest => unicodeEscape rest
  | _ :: _ => .error ⟨.invalidEscape, 1⟩

/-- The octets of a string up to its closing quote, in reverse, and the number of octets read.
`skip` octets belong to an escape that has been read. -/
def stringOctets (offset : Nat) (found : List UInt8) :
    Nat → List UInt8 → Except Numeral.Failure (List UInt8 × Nat)
  | _, [] => .error ⟨.endInString, offset⟩
  | skip + 1, _ :: rest => stringOctets (offset + 1) found skip rest
  | 0, b :: rest =>
      if b == 0x22 then .ok (found, offset + 1)
      else if b < 0x20 then .error ⟨.controlCharacter, offset + 1⟩
      else if b == 0x5C then
        match escape rest with
        | .ok (octets, length) =>
            stringOctets (offset + 1) (octets.reverse ++ found) length rest
        | .error failure => .error ⟨failure.fault, offset + 1 + failure.offset⟩
      else stringOctets (offset + 1) (b :: found) 0 rest

/-- The length of an escape after its backslash, where the escape of a code unit may stand for any
part of a surrogate pair. -/
def escapeLength? : List UInt8 → Option Nat
  | 0x75 :: rest => (fourHexDigits 1 rest).toOption.map fun _ => 5
  | bytes => (escape bytes).toOption.map Prod.snd

/-- The length of a string up to its closing quote, if only its code units are at fault. `skip`
octets belong to an escape that has been read. -/
def closedLength? (offset : Nat) : Nat → List UInt8 → Option Nat
  | _, [] => none
  | skip + 1, _ :: rest => closedLength? (offset + 1) skip rest
  | 0, b :: rest =>
      if b == 0x22 then some (offset + 1)
      else if b < 0x20 then none
      else if b == 0x5C then
        match escapeLength? rest with
        | some length => closedLength? (offset + 1) length rest
        | none => none
      else closedLength? (offset + 1) 0 rest

/-- The string at `position`, after its opening quote, and its length with both quotes. -/
def readString (position : Nat) (rest : List UInt8) : JsonToken × Nat :=
  match stringOctets 1 [] 0 rest with
  | .error failure =>
      let flaw : JsonFlaw := ⟨failure.fault, position + failure.offset, 0⟩
      match closedLength? 1 0 rest with
      | some length => (.badString flaw true, length)
      | none => (.badString flaw false, 1)
  | .ok (reversed, length) =>
      -- The octets between the quotes need not be UTF-8.
      let octets := reversed.reverse
      match Utf8.decode? octets with
      | some text => (.string text, length)
      | none =>
          let flaw : JsonFlaw :=
            ⟨.notUnicode, position + length, octets.length - Utf8.validLength octets⟩
          (.badString flaw true, length)

/-! ## Words -/

/-- Compares a text with a word after its first letter. Gives the number of octets up to the place
where they differ. -/
def compareWord (offset : Nat) : List UInt8 → List UInt8 → Option Numeral.Failure
  | [], _ => none
  | _ :: _, [] => some ⟨.endInValue, offset⟩
  | w :: word, b :: rest =>
      if w == b then compareWord (offset + 1) word rest else some ⟨.expectedIdentifier, offset + 1⟩

/-- The value written by a word, after the word's first letter. -/
def readWord (position : Nat) (word : String) (value : Json) (rest : List UInt8) :
    JsonToken × Nat :=
  match compareWord 1 (word.toUTF8.data.toList.drop 1) rest with
  | none => (.scalar value, word.length)
  | some failure => (.bad ⟨failure.fault, position + failure.offset, 0⟩ false, 1)

/-- The number at `position`. A number that is out of range ends with the last of its digits. -/
def readNumber (position : Nat) (bytes : List UInt8) : JsonToken × Nat :=
  match Numeral.read bytes with
  | .ok (number, length) => (.scalar (.number number), length)
  | .error failure =>
      let flaw : JsonFlaw := ⟨failure.fault, position + failure.offset, 0⟩
      if failure.fault = .numberOutOfRange then
        let digits := (bytes.drop failure.offset).takeWhile Numeral.isDigit
        (.bad flaw true, failure.offset + digits.length)
      else (.bad flaw false, 1)

/-! ## Tokens -/

/-- Whether an octet is white space of JSON. -/
def isBlank (b : UInt8) : Bool := b == 0x20 || b == 0x09 || b == 0x0A || b == 0x0D

/-- The token that starts with a given octet, and its length. -/
def read (position : Nat) (b : UInt8) (rest : List UInt8) : JsonToken × Nat :=
  match b with
  | 0x5B => (.openArray, 1)
  | 0x5D => (.closeArray, 1)
  | 0x7B => (.openObject, 1)
  | 0x7D => (.closeObject, 1)
  | 0x2C => (.comma, 1)
  | 0x3A => (.colon, 1)
  | 0x22 => readString position rest
  | 0x6E => readWord position "null" .null rest
  | 0x74 => readWord position "true" (.bool true) rest
  | 0x66 => readWord position "false" (.bool false) rest
  | b =>
      if b == 0x2D || Numeral.isDigit b then readNumber position (b :: rest)
      else (.bad ⟨.expectedValue, position + 1, 0⟩ false, 1)

/-- Whether a token has an end, so that the text can be read on after it. -/
def hasEnd : JsonToken → Bool
  | .badString _ ends => ends
  | .bad _ ends => ends
  | _ => true

/-- The tokens of an octet string up to the first without an end. `skip` octets belong to a token
that has been read. -/
def readAllFrom (position : Nat) : Nat → List UInt8 → List JsonLexeme
  | _, [] => []
  | skip + 1, _ :: rest => readAllFrom (position + 1) skip rest
  | 0, b :: rest =>
      if isBlank b then readAllFrom (position + 1) 0 rest
      else
        let (token, length) := read position b rest
        if token.hasEnd then
          ⟨token, position⟩ :: readAllFrom (position + 1) (length - 1) rest
        else [⟨token, position⟩]

/-- The tokens of an octet string up to the first without an end. -/
def readAll (bytes : List UInt8) : List JsonLexeme := readAllFrom 0 0 bytes

/-- What a string or number that has an end and no value is passed over as. -/
def standIn : Json := .bool false

/-- The token that stands for a given one where values are passed over. -/
def skim : JsonToken → JsonToken
  | .badString _ true => .scalar standIn
  | .bad _ true => .scalar standIn
  | token => token

end JsonToken

/-- A token in its place where values are passed over. -/
def JsonLexeme.skim (lexeme : JsonLexeme) : JsonLexeme := ⟨lexeme.token.skim, lexeme.position⟩

end DesignTokens
