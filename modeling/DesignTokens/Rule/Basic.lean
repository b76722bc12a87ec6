import DesignTokens.Pattern.Reader
import DesignTokens.Text.Upper

/-!
# Rules

A rule applies to the tokens of a family, which is a set of names given by a pattern. A keyword rule
replaces one literal by another, and a unit rule appends a unit to a number.
-/

set_option autoImplicit false

namespace DesignTokens

/-- Why a rule cannot be made. -/
inductive RuleError where
  | emptyKeyword (family : String)
  | invalidPattern (pattern : String)
deriving DecidableEq, Repr

/-- The sentence shown for a rule that cannot be made. -/
def RuleError.message : RuleError → String
  | .emptyKeyword family => "keyword rule for '" ++ family ++ "' has an empty match literal"
  | .invalidPattern pattern => "invalid rule pattern '" ++ pattern ++ "': regex parse error:"

/-! ## Families -/

/-- A family of tokens: the names in which a pattern matches, and the pattern as it is written. -/
structure Family where
  source : String
  pattern : Pattern
deriving Repr, DecidableEq

namespace Family

/-- Whether a name belongs to a family. -/
def contains (family : Family) (name : String) : Bool := family.pattern.isIn name

/-- Reads the pattern of a family. -/
def parse (source : String) : Except RuleError Family :=
  match Pattern.parse? source with
  | some pattern => .ok ⟨source, pattern⟩
  | none => .error (.invalidPattern source)

/-- The family of the names that start with a text. -/
def startingWith (start : String) : Family :=
  ⟨"^" ++ start, .sequence (.assertion .textStart) (.literal start.toList)⟩

end Family

/-! ## Rules -/

/-- Replaces a value whose text in upper case is `literal`. -/
structure KeywordRule where
  family : Family
  literal : String
  replacement : String
deriving Repr, DecidableEq

/-- Appends a unit to a number. -/
structure UnitRule where
  family : Family
  unit : String
deriving Repr, DecidableEq

/-- A rule for the values of a family. -/
inductive Rule where
  | keyword (rule : KeywordRule)
  | unit (rule : UnitRule)
deriving Repr, DecidableEq

namespace Rule

/-- The family of a rule. -/
def family : Rule → Family
  | .keyword rule => rule.family
  | .unit rule => rule.family

/-- The rule that replaces exactly one text, which is compared in upper case. -/
def replacing (family literal replacement : String) : Except RuleError Rule :=
  if literal = "" then .error (.emptyKeyword family)
  else (Family.parse family).map fun names => .keyword ⟨names, literal, replacement⟩

/-- The rule that replaces a keyword, in upper or lower case. -/
def replacingKeyword (family literal replacement : String) : Except RuleError Rule :=
  replacing family (Text.upper literal) replacement

/-- The rule that appends a unit. -/
def appending (family unit : String) : Except RuleError Rule :=
  (Family.parse family).map fun names => .unit ⟨names, unit⟩

/-- The unit of pixel lengths. -/
def pixel : String := "px"

/-- The rule that makes numbers pixel lengths. -/
def appendingPixel (family : String) : Except RuleError Rule := appending family pixel

end Rule

end DesignTokens
