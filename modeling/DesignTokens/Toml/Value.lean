/-!
# TOML values

The values of a TOML document that settings are made of: strings, booleans, arrays and tables.
Numbers and dates have no place in settings, so a document that holds one is not read.
-/

set_option autoImplicit false

namespace DesignTokens

/-- A value of a TOML document. -/
inductive Toml where
  | string (text : String)
  | boolean (value : Bool)
  | array (items : List Toml)
  | table (entries : List (String × Toml))
deriving Repr

instance : Inhabited Toml := ⟨.table []⟩

end DesignTokens
