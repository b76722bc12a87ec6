/-!
# Runs of case mappings

Tables of case mappings hold runs: letters at equal distances that all move by the same number.
-/

set_option autoImplicit false

namespace DesignTokens.Text

/-- The code points `first`, `first + step`, up to `last`, each of which maps to itself plus
`shift`. -/
structure CaseRun where
  first : Nat
  last : Nat
  step : Nat
  shift : Int
deriving Repr

namespace CaseRun

/-- Whether a code point belongs to a run. -/
def contains (run : CaseRun) (n : Nat) : Bool :=
  run.first ≤ n && n ≤ run.last && (n - run.first) % run.step == 0

/-- The code point that a member of a run maps to. -/
def apply (run : CaseRun) (n : Nat) : Nat := (n + run.shift).toNat

/-- The code point of a run that maps to a given one. -/
def source? (run : CaseRun) (n : Nat) : Option Nat :=
  let candidate := (n - run.shift).toNat
  if run.contains candidate && run.apply candidate == n then some candidate else none

end CaseRun

end DesignTokens.Text
