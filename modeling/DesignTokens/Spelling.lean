/-!
# Refused spellings

The reasons for which a text is refused as a name or as a digest, and their wording.
-/

set_option autoImplicit false

namespace DesignTokens

/-- Why a text is no value of a field with a fixed spelling. -/
inductive SpellingError where
  | empty (field : String)
  | notAllowed (field value : String)
deriving DecidableEq, Repr

/-- The sentence shown for a refused spelling. -/
def SpellingError.message : SpellingError → String
  | .empty field => field ++ " is empty"
  | .notAllowed field value => field ++ " ('" ++ value ++ "') is not allowed"

end DesignTokens
