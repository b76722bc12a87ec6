import DesignTokens.CssText
import DesignTokens.Merge

/-!
# Stylesheets

The final tokens as one CSS rule of custom properties, one declaration a line. A token whose value
has no CSS text has no declaration. Texts stand verbatim.
-/

set_option autoImplicit false

namespace DesignTokens

/-- A custom property with the text of its value. -/
structure Declaration where
  name : CanonicalName
  text : String
deriving DecidableEq, Repr

namespace Declaration

/-- The line of a declaration. -/
def line (declaration : Declaration) : String :=
  "  --" ++ declaration.name.text ++ ": " ++ declaration.text ++ ";"

/-- The declaration of a token; none if its value has no CSS text. -/
def ofToken? (token : CanonicalName × Json) : Option Declaration :=
  token.2.cssText?.map fun text => ⟨token.1, text⟩

end Declaration

namespace Stylesheet

/-- The first line of a stylesheet. -/
def opening : String := ":root \x7b"

/-- The last line of a stylesheet. -/
def closing : String := "\x7d"

/-- The lines of a stylesheet. -/
def lines (declarations : List Declaration) : List String :=
  opening :: declarations.map Declaration.line ++ [closing]

/-- Ends every line with a line feed. -/
def joinLines (lines : List String) : String :=
  String.ofList (lines.flatMap fun line => line.toList ++ ['\n'])

end Stylesheet

namespace TokenMap

/-- The declarations of the tokens, in order. -/
def declarations (tokens : TokenMap) : List Declaration :=
  tokens.entries.filterMap Declaration.ofToken?

/-- The stylesheet of the tokens. -/
def stylesheet (tokens : TokenMap) : String :=
  Stylesheet.joinLines (Stylesheet.lines (declarations tokens))

/-- The tokens as the members of a JSON object. -/
def toJson (tokens : TokenMap) : Json :=
  .object (tokens.entries.map fun token => (token.1.text, token.2))

end TokenMap

end DesignTokens
