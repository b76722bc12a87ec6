import DesignTokens.Proofs.Compilation.Isolation
import DesignTokens.Proofs.Compilation.Names
import DesignTokens.Proofs.Merge.Counts

/-!
# The balance of a report

The variables of a build are the names of its tokens and the corrections that were added. So
variables and overrides together are tokens and counted corrections together, unless two names share
an added correction: it is counted for each of them (`corrections_balance_iff`,
`shared_correction_is_counted_twice`).
-/

set_option autoImplicit false

namespace DesignTokens

open Merge

namespace Compilation

variable (options : CompileOptions) (inputs : List LoadResult)

/-- The tokens of the documents that contribute, document by document. -/
def survivorTokens : List NormalTokens :=
  (survivors options.mode inputs).map fun document => normalTokens options.rules document.leaves

/-- The counters of a compilation are those of the merge of the documents that contribute. -/
theorem metrics_compile :
    (compile options inputs).report.metric "variables" =
        (merge (survivorTokens options inputs)).tokens.size ∧
      (compile options inputs).report.metric "overrides" =
        (merge (survivorTokens options inputs)).stats.overrides ∧
      (compile options inputs).report.metric "tokens" =
        (merge (survivorTokens options inputs)).stats.tokens ∧
      (compile options inputs).report.metric "mirrored" =
        (merge (survivorTokens options inputs)).stats.corrections := by
  have merged : mergedSurvivors options inputs = merge (survivorTokens options inputs) := rfl
  rw [compile_eq, merged]
  refine ⟨metric_reportOf _ _ _ ?_, metric_reportOf _ _ _ ?_, metric_reportOf _ _ _ ?_,
    metric_reportOf _ _ _ ?_⟩ <;>
  simp [Report.mergeMetrics, Report.variablesMetric]

/-- The names of the leaves are the names that the contributing documents give. -/
theorem mem_leafNames_iff_given (name : CanonicalName) :
    name ∈ leafNames options.mode inputs ↔ name ∈ givenNames (survivorTokens options inputs) := by
  rw [mem_leafNames, mem_givenNames]
  rfl

end Compilation

open Compilation

/-- **When the counts balance.** The merged map has the given names and the added ones. The added ones
are as many as the counted corrections exactly if no two given names share an added correction; and
in every report variables and overrides together are tokens and corrections together exactly if no
two names of leaves do so. -/
theorem corrections_balance_iff (documents : List NormalTokens) (options : CompileOptions)
    (inputs : List LoadResult) :
    (merge documents).tokens.size = (givenNames documents).eraseDups.length +
        ((merge documents).tokens.keys.countP fun name => name ∉ givenNames documents) ∧
      (((merge documents).tokens.keys.countP fun name => name ∉ givenNames documents) =
          (merge documents).stats.corrections ↔ CorrectedApart (givenNames documents)) ∧
      ((compile options inputs).report.metric "variables" +
          (compile options inputs).report.metric "overrides" =
        (compile options inputs).report.metric "tokens" +
          (compile options inputs).report.metric "mirrored" ↔
        CorrectedApart (leafNames options.mode inputs)) := by
  refine ⟨size_merge documents, added_names_eq_corrections_iff documents, ?_⟩
  obtain ⟨entries, overrides, tokens, corrections⟩ := metrics_compile options inputs
  have size := size_merge (survivorTokens options inputs)
  have seen := tokens_eq_overrides_add_names (survivorTokens options inputs)
  rw [correctedApart_congr (mem_leafNames_iff_given options inputs),
    ← added_names_eq_corrections_iff, entries, overrides, tokens, corrections, size, seen]
  omega

/-- A document with two names that have one correction. -/
def twoOriginalsDocument : Document where
  id := "a.json"
  tree := .object [
    ("gird", .object [("grid", .object [("a", .object [("value", .string "1")])])]),
    ("grid", .object [("gird", .object [("a", .object [("value", .string "2")])])])]

/-- **A correction that two names share is counted twice**, though it is one entry: three variables
are made of two tokens and one correction, and two corrections are reported. -/
theorem shared_correction_is_counted_twice :
    (merge twoOriginals).stats.corrections = 2 ∧
      ((merge twoOriginals).tokens.keys.countP fun name => name ∉ givenNames twoOriginals) = 1 ∧
      ∃ report, (compile .standard [.ok twoOriginalsDocument]).report = report ∧
        report.metric "variables" = 3 ∧ report.metric "overrides" = 0 ∧
        report.metric "tokens" = 2 ∧ report.metric "mirrored" = 2 := by
  refine ⟨rfl, by decide, _, rfl, ?_⟩
  decide +kernel

end DesignTokens
