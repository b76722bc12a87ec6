import DesignTokens.Proofs.Compilation.Balance
import DesignTokens.Proofs.Compilation.Locality
import DesignTokens.Proofs.Merge.Overrides

/-!
# The counters of documents, tokens and overrides

A report counts the documents that contribute, their tokens and the overrides among them. The leaves
of one document that share a name are one token, so that only a leaf of another document is ever
overridden (`counters_tally_names`).
-/

set_option autoImplicit false

namespace DesignTokens

/-- The names of a document, each once. -/
def Document.distinctNames (document : Document) : List CanonicalName := document.names.eraseDups

namespace Compilation

variable (options : CompileOptions) (inputs : List LoadResult)

/-- The tokens of a document have the names of its leaves. -/
theorem map_keys_survivorTokens :
    (survivorTokens options inputs).map OrderedMap.keys =
      (survivors options.mode inputs).map Document.distinctNames := by
  rw [survivorTokens, List.map_map]
  apply List.map_congr_left
  intro document _
  exact keys_normalTokens options.rules document.leaves

theorem documents_metric_compile :
    (compile options inputs).report.metric "documents" =
      (merge (survivorTokens options inputs)).stats.documents := by
  have merged : mergedSurvivors options inputs = merge (survivorTokens options inputs) := rfl
  rw [compile_eq, merged]
  apply metric_reportOf
  simp [Report.mergeMetrics]

end Compilation

open Compilation

/-- **Counters tally names.** A merge counts its documents, the names of each of them, and the places,
a document and a name in it, at which an earlier document has the name too. Every token is an override
or the first one of its name. A report counts the contributing documents and the names of their leaves
in the same way; leaves of one document with one name are one token, and none overrides another. -/
theorem counters_tally_names (documents : List NormalTokens) (options : CompileOptions)
    (inputs : List LoadResult) :
    Tally (documents.map OrderedMap.keys) (merge documents).stats.documents
        (merge documents).stats.tokens (merge documents).stats.overrides ∧
      Tally ((survivors options.mode inputs).map Document.distinctNames)
        ((compile options inputs).report.metric "documents")
        ((compile options inputs).report.metric "tokens")
        ((compile options inputs).report.metric "overrides") := by
  refine ⟨Merge.tally_merge documents, ?_⟩
  obtain ⟨-, overrides, tokens, -⟩ := metrics_compile options inputs
  have tally := Merge.tally_merge (survivorTokens options inputs)
  rw [map_keys_survivorTokens] at tally
  rw [documents_metric_compile, overrides, tokens]
  exact tally

end DesignTokens
