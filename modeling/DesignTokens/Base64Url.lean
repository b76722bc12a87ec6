/-!
# Base64url without padding

The encoding of octets by letters, digits, `-` and `_`, three octets to four characters, without
padding at the end. No character of it has a meaning in a URL or in a file name.
-/

set_option autoImplicit false

namespace DesignTokens.Base64Url

/-- The character of a value below 64. -/
def digit (n : Nat) : Char :=
  if n < 26 then Char.ofNat (65 + n)
  else if n < 52 then Char.ofNat (71 + n)
  else if n < 62 then Char.ofNat (n - 4)
  else if n = 62 then '-' else '_'

/-- Whether a character is a digit of the encoding. -/
def isDigit (c : Char) : Bool := c.isAlphanum || c == '-' || c == '_'

/-- The characters of a list of octets. -/
def encode : List UInt8 → List Char
  | a :: b :: c :: rest =>
      let n := a.toNat * 65536 + b.toNat * 256 + c.toNat
      digit (n / 262144) :: digit (n / 4096 % 64) :: digit (n / 64 % 64) :: digit (n % 64) ::
        encode rest
  | [a, b] =>
      let n := a.toNat * 256 + b.toNat
      [digit (n / 1024), digit (n / 16 % 64), digit (n % 16 * 4)]
  | [a] => [digit (a.toNat / 4), digit (a.toNat % 4 * 16)]
  | [] => []

end DesignTokens.Base64Url
