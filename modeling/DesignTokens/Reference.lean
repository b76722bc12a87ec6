import DesignTokens.Name
import DesignTokens.Text.Blank

/-!
# References between tokens

A token value may refer to another token, written as the other token's path in braces. A
reference becomes the CSS variable of the other token's name; the other token itself is
not looked up.
-/

set_option autoImplicit false

namespace DesignTokens

/-- A reference to another token, by the path written between the braces. -/
structure Reference where
  path : String
deriving DecidableEq, Repr

namespace Reference

/-- Whether a character is a brace. -/
def isBrace (c : Char) : Bool := c == '\x7b' || c == '\x7d'

/-- The text between an opening brace at the start and a closing brace at the end. -/
def unbrace? : List Char → Option (List Char)
  | '\x7b' :: rest => if rest.getLast? = some '\x7d' then some rest.dropLast else none
  | _ => none

/-- Reads a reference: one pair of braces around a text without braces that is not empty. White
space around it does not count. -/
def parse? (text : String) : Option Reference :=
  match unbrace? (Text.trim text.toList) with
  | some path =>
      if path.isEmpty || path.any isBrace then none else some ⟨String.ofList path⟩
  | none => none

/-- The canonical spelling of the token that is referred to. -/
def target (reference : Reference) : String := canonicalText reference.path

/-- The CSS variable of the token that is referred to. -/
def toCssVariable (reference : Reference) : String := "var(--" ++ reference.target ++ ")"

/-- The reference as it is written. -/
def render (reference : Reference) : String := "\x7b" ++ reference.path ++ "\x7d"

instance : ToString Reference := ⟨render⟩

end Reference

end DesignTokens
