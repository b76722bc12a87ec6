import DesignTokens.Digest
import DesignTokens.Merge
import DesignTokens.Report.Counters

/-!
# Build reports

What a build has to say beside its stylesheet: whether every document contributed, warning codes,
counters, the documents that were left out, and the digest of the stylesheet.
-/

set_option autoImplicit false

namespace DesignTokens

/-- The outcome of a build. -/
inductive BuildStatus where
  /-- Every document contributed. -/
  | ok
  /-- At least one document was left out. -/
  | degraded
deriving DecidableEq, Repr

/-- A document that was left out of a build, and why. -/
structure SkippedDocument where
  document : String
  reason : String
deriving DecidableEq, Repr

/-- The account of one build. -/
structure Report where
  status : BuildStatus
  warnings : List String
  metrics : Counters
  skipped : List SkippedDocument
  digest : Option Digest

namespace Report

/-- The warning that a document was left out. -/
def skippedWarning : String := "SkippedDocument"

/-- The warning that there was no document at all. -/
def noDocumentsWarning : String := "NoDocuments"

/-- The counter of the variables in the stylesheet. -/
def variablesMetric : String := "variables"

/-- The report of a build in which nothing has happened. -/
def initial : Report := ⟨.ok, [], .empty, [], none⟩

instance : Inhabited Report := ⟨initial⟩

/-- Adds a warning code, once. -/
def warn (report : Report) (code : String) : Report :=
  if code ∈ report.warnings then report
  else { report with warnings := report.warnings ++ [code] }

/-- Adds a document that was left out. -/
def skip (report : Report) (skipped : SkippedDocument) : Report :=
  warn { report with skipped := report.skipped ++ [skipped], status := .degraded } skippedWarning

/-- Sets a counter. -/
def setMetric (report : Report) (name : String) (count : Nat) : Report :=
  { report with metrics := report.metrics.set name count }

/-- Reads a counter, zero if it was never set. -/
def metric (report : Report) (name : String) : Nat := report.metrics.get name

/-- The counters of a merge. -/
def mergeMetrics (stats : MergeStats) : List (String × Nat) :=
  [("documents", stats.documents), ("tokens", stats.tokens), ("overrides", stats.overrides),
    ("aliases", stats.aliases), ("mirrored", stats.corrections)]

/-- Sets the counters of a merge. -/
def recordMerge (report : Report) (stats : MergeStats) : Report :=
  { report with metrics := report.metrics.setAll (mergeMetrics stats) }

end Report

end DesignTokens
