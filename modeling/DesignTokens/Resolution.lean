import DesignTokens.Collection
import DesignTokens.Reference
import DesignTokens.Rule.Table

/-!
# Resolving token values

How the value of a token becomes the value of a CSS variable. A keyword is replaced first; a
reference to another token becomes the CSS variable of that token; a number takes its unit; any
other value stays. A reference never takes a unit.
-/

set_option autoImplicit false

namespace DesignTokens

/-- Where a resolved value comes from. -/
inductive Origin where
  | literal
  | alias
deriving DecidableEq, Repr

/-- The name of an origin. -/
def Origin.name : Origin → String
  | .literal => "literal"
  | .alias => "alias"

/-- A value that can stand in a declaration, and where it comes from. -/
structure Resolved where
  value : Json
  origin : Origin

/-- Whether a value comes from a reference to another token. -/
def Resolved.isAlias (resolved : Resolved) : Bool := resolved.origin == .alias

/-- The reference that a value is. -/
def Json.reference? : Json → Option Reference
  | .string text => Reference.parse? text
  | _ => none

/-- The tokens of one document by their final names, in the order of first appearance. -/
abbrev NormalTokens := OrderedMap CanonicalName Resolved

namespace RuleTable

/-- Resolves the value of a token whose final name is given. -/
def resolve (table : RuleTable) (name : String) (value : Json) : Resolved :=
  match table.substituteKeyword name value with
  | some text => ⟨.string text, .literal⟩
  | none =>
      -- The text of a reference is no decimal, so that no unit is lost here.
      match value.reference? with
      | some reference => ⟨.string reference.toCssVariable, .alias⟩
      | none =>
          match table.injectUnit name value with
          | some text => ⟨.string text, .literal⟩
          | none => ⟨value, .literal⟩

/-- The final name and the resolved value of a collected token; none if nothing of its name can be
kept. -/
def normalize? (table : RuleTable) (rawName : String) (value : Json) :
    Option (CanonicalName × Resolved) :=
  (CanonicalName.derive? rawName).map fun name => (name, table.resolve name.text value)

/-- The tokens of a document by their final names. Of several tokens with one final name the last
one wins, at the place of the first. -/
def normalizeAll (table : RuleTable) (tokens : RawTokens) : NormalTokens :=
  OrderedMap.ofList (tokens.entries.filterMap fun token => table.normalize? token.1 token.2)

end RuleTable

end DesignTokens
