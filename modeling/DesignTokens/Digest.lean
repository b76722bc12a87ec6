import DesignTokens.Spelling
import DesignTokens.Base64Url
import DesignTokens.Sha256

/-!
# Digests

A digest is a hash algorithm with the hash in base64url. It is written as the algorithm's name, a
colon and the encoded hash.
-/

set_option autoImplicit false

namespace DesignTokens

/-- The hash algorithms. -/
inductive HashAlgorithm where
  | sha256
deriving DecidableEq, Repr

/-- The name of an algorithm in written digests. -/
def HashAlgorithm.name : HashAlgorithm → String
  | .sha256 => "sha-256"

/-- The algorithm of a name. -/
def HashAlgorithm.ofName? (name : String) : Option HashAlgorithm :=
  if name = HashAlgorithm.sha256.name then some .sha256 else none

/-- A hash algorithm and a hash in base64url. -/
structure Digest where
  algorithm : HashAlgorithm
  encoded : String
deriving DecidableEq, Repr

namespace Digest

/-- The name of a field that holds a digest, as error texts give it. -/
def field : String := "digest"

/-- Whether a text is admitted as an encoded hash: 43 or 44 digits of base64url. -/
def isEncoded (cs : List Char) : Bool :=
  (cs.length == 43 || cs.length == 44) && cs.all Base64Url.isDigit

/-- The digest of a message. -/
def ofMessage (message : ByteArray) : Digest :=
  ⟨.sha256, String.ofList (Base64Url.encode (sha256 message.data.toList))⟩

/-- The digest of the UTF-8 form of a text. -/
def ofText (text : String) : Digest := ofMessage text.toUTF8

/-- Pairs an algorithm with an encoded hash. -/
def ofEncoded (algorithm : HashAlgorithm) (encoded : String) : Except SpellingError Digest :=
  if isEncoded encoded.toList then .ok ⟨algorithm, encoded⟩
  else .error (.notAllowed field encoded)

/-- The algorithm, a colon, and the encoded hash. -/
def render (digest : Digest) : String := digest.algorithm.name ++ ":" ++ digest.encoded

instance : ToString Digest := ⟨render⟩

/-- Reads a written digest. What stands before the first colon names the algorithm. -/
def parse (text : String) : Except SpellingError Digest :=
  match text.toList.span (· != ':') with
  | (name, ':' :: encoded) =>
      match HashAlgorithm.ofName? (String.ofList name) with
      | some algorithm => ofEncoded algorithm (String.ofList encoded)
      -- The whole text is at fault, and not only what follows the colon.
      | none => .error (.notAllowed field text)
  | _ => .error (.notAllowed field text)

end Digest

end DesignTokens
