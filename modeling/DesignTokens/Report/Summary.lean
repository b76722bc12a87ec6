import DesignTokens.Report.Basic

/-!
# Build summaries

A report in a few lines for a reader, after the path of the stylesheet.
-/

set_option autoImplicit false

namespace DesignTokens.Report

/-- The line of a count that is shown only if it is not zero. -/
def countLine? (label : String) (count : Nat) : Option String :=
  if count = 0 then none else some (label ++ toString count)

/-- The line of a document that was left out. -/
def skippedLine (skipped : SkippedDocument) : String :=
  "    " ++ skipped.document ++ ": " ++ skipped.reason

/-- The lines of a summary. -/
def summaryLines (path : String) (report : Report) : List String :=
  ["Wrote " ++ path,
    "  Variables: " ++ toString (report.metric variablesMetric),
    "  Aliases resolved to var(--…): " ++ toString (report.metric "aliases")] ++
  (countLine? "  Typo mirrors: " (report.metric "mirrored")).toList ++
  (countLine? "  Skipped documents: " report.skipped.length).toList ++
  report.skipped.map skippedLine ++
  (report.digest.map fun digest => "  Digest: " ++ digest.render).toList

/-- The summary of a build that wrote a stylesheet to a path. -/
def summary (path : String) (report : Report) : String :=
  String.intercalate "\n" (summaryLines path report)

end DesignTokens.Report
