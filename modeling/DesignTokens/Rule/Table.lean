import DesignTokens.Rule.Basic
import DesignTokens.CssText

/-!
# Rule tables

The keyword rules and the unit rules that are in force, each class in the order in which its rules
were added. Within a class the first rule that applies wins.
-/

set_option autoImplicit false

namespace DesignTokens

/-- The rules in force. -/
structure RuleTable where
  keywords : List KeywordRule
  units : List UnitRule
deriving Repr, DecidableEq

namespace RuleTable

/-- The table without rules. -/
def empty : RuleTable := ⟨[], []⟩

/-- Adds a rule after the rules of its class. -/
def add (table : RuleTable) : Rule → RuleTable
  | .keyword rule => { table with keywords := table.keywords ++ [rule] }
  | .unit rule => { table with units := table.units ++ [rule] }

/-- Adds rules, first to last. -/
def addAll (table : RuleTable) (rules : List Rule) : RuleTable := rules.foldl add table

/-- Number of rules. -/
def size (table : RuleTable) : Nat := table.keywords.length + table.units.length

/-- Whether there is no rule. -/
def isEmpty (table : RuleTable) : Bool := table.size == 0

/-- The starts of the names whose numbers are pixel lengths, with the misspelling `gird` that older
documents use. -/
def pixelStarts : List String :=
  ["width-", "breakpoint", "breakpoints-", "grid-columns-", "gird-columns-"]

/-- The table of the built-in rules: automatic line heights, and pixel lengths. -/
def builtIn : RuleTable where
  keywords := [⟨Family.startingWith "lineheights-", "AUTO", "normal"⟩]
  units := pixelStarts.map fun start => ⟨Family.startingWith start, Rule.pixel⟩

instance : Inhabited RuleTable := ⟨builtIn⟩

/-! ## Keywords -/

/-- What a keyword rule makes of a text in upper case under a name. -/
def KeywordRule.apply? (rule : KeywordRule) (name text : String) : Option String :=
  if rule.family.contains name && rule.literal == text then some rule.replacement else none

/-- The replacement of a keyword: that of the first keyword rule whose family holds the name and
whose literal is the value's text in upper case. -/
def substituteKeyword (table : RuleTable) (name : String) (value : Json) : Option String :=
  value.cssText?.bind fun text =>
    table.keywords.findSome? fun rule => KeywordRule.apply? rule name (Text.upper text)

/-! ## Units -/

/-- The digits of a fraction: one digit or more. -/
def isDigits (cs : List Char) : Bool := !cs.isEmpty && cs.all Char.isDigit

/-- Whether a text is a decimal without a sign: digits, and perhaps a point and more digits. -/
def isUnsignedDecimal (cs : List Char) : Bool :=
  match cs.span (· != '.') with
  | (whole, []) => isDigits whole
  | (whole, _ :: fraction) => isDigits whole && isDigits fraction

/-- Whether a text is a decimal: perhaps a minus sign, digits, and perhaps a point and more
digits. -/
def isDecimal : List Char → Bool
  | '-' :: rest => isUnsignedDecimal rest
  | cs => isUnsignedDecimal cs

/-- The text of a number, or of a string that is a decimal. -/
def numericText? : Json → Option String
  | .number n => some n.cssText
  | .string text => if isDecimal text.toList then some text else none
  | _ => none

/-- A number with the unit of the first unit rule whose family holds the name. -/
def injectUnit (table : RuleTable) (name : String) (value : Json) : Option String :=
  (numericText? value).bind fun number =>
    (table.units.find? fun rule => rule.family.contains name).map fun rule => number ++ rule.unit

end RuleTable

end DesignTokens
