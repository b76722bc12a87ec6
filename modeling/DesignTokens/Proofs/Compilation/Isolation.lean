import DesignTokens.Proofs.Compilation.Survivors
import DesignTokens.Proofs.Report.Account
import Mathlib.Data.List.Basic

/-!
# Documents that are left out

A load result that is left out leaves no trace but its entry in the report: stylesheet, tokens,
digest and counters are those of the contributing documents alone, and the report accounts for
every load result (`rejections_leave_no_trace`).
-/

set_option autoImplicit false

namespace DesignTokens.Compilation

/-- The compilation of the contributing documents alone. -/
def compileSurvivors (options : CompileOptions) (inputs : List LoadResult) : Compiled :=
  compile options ((survivors options.mode inputs).map .ok)

/-! ## The contributing documents alone -/

theorem accepted?_of_mem_survivors {mode : CollectMode} {inputs : List LoadResult}
    {document : Document} (h : document ∈ survivors mode inputs) :
    accepted? mode (.ok document) = some document := by
  obtain ⟨input, -, accepted⟩ := List.mem_filterMap.1 h
  rw [← eq_ok_of_accepted? accepted, accepted]

theorem survivors_map_ok (mode : CollectMode) (inputs : List LoadResult) :
    survivors mode ((survivors mode inputs).map .ok) = survivors mode inputs := by
  rw [survivors, List.filterMap_map]
  calc (survivors mode inputs).filterMap (accepted? mode ∘ .ok)
      = (survivors mode inputs).filterMap some :=
        List.filterMap_congr fun _ h => accepted?_of_mem_survivors h
    _ = survivors mode inputs := List.filterMap_some

theorem mergedSurvivors_map_ok (options : CompileOptions) (inputs : List LoadResult) :
    mergedSurvivors options ((survivors options.mode inputs).map .ok) =
      mergedSurvivors options inputs := by
  rw [mergedSurvivors, survivors_map_ok, mergedSurvivors]

theorem documents_mergedSurvivors (options : CompileOptions) (inputs : List LoadResult) :
    (mergedSurvivors options inputs).stats.documents = (survivors options.mode inputs).length := by
  rw [mergedSurvivors, merge, List.length_map]

/-- Every load result contributes or is left out. -/
theorem length_survivors_add_length_rejections (mode : CollectMode) (inputs : List LoadResult) :
    (survivors mode inputs).length + (rejections mode inputs).length = inputs.length := by
  induction inputs with
  | nil => rfl
  | cons input rest ih =>
      have either := isSome_accepted? mode input
      simp only [survivors, rejections, List.filterMap_cons] at ih ⊢
      cases accepted : accepted? mode input with
      | none =>
          cases rejected : rejection? mode input with
          | none => simp [accepted, rejected] at either
          | some skipped => simp only [List.length_cons]; omega
      | some document =>
          cases rejected : rejection? mode input with
          | none => simp only [List.length_cons]; omega
          | some skipped => simp [accepted, rejected] at either

/-! ## The report -/

/-- The report of a compilation, part by part. -/
theorem reportOf_eq (left : List SkippedDocument) (merged : Merged) (css : String) :
    reportOf left merged css =
      { status := if left = [] then .ok else .degraded
        warnings :=
          if left = [] then if merged.stats.documents = 0 then [Report.noDocumentsWarning] else []
          else [Report.skippedWarning]
        metrics := (Counters.empty.setAll (Report.mergeMetrics merged.stats)).set
          Report.variablesMetric merged.tokens.size
        skipped := left
        digest := some (Digest.ofText css) } := by
  have account := Report.leavesOut_initial.foldl_skip left
  rw [List.nil_append] at account
  rw [reportOf]
  generalize left.foldl Report.skip .initial = report at account
  obtain ⟨skipped, status, warnings, metrics⟩ := account
  by_cases none_left : left = []
  · by_cases none_merged : merged.stats.documents = 0
    · simp_all [Report.warn, Report.setMetric, Report.recordMerge]
    · simp_all [Report.setMetric, Report.recordMerge]
  · simp_all [Report.setMetric, Report.recordMerge]

/-- Every counter of a compilation can be read in its report. -/
theorem metric_reportOf (left : List SkippedDocument) (merged : Merged) (css : String)
    {name : String} {count : Nat}
    (h : (name, count) ∈
      (Report.variablesMetric, merged.tokens.size) :: Report.mergeMetrics merged.stats) :
    (reportOf left merged css).metric name = count := by
  rw [reportOf_eq, Report.metric]
  simp only [Report.mergeMetrics, List.mem_cons, Prod.mk.injEq, List.not_mem_nil, or_false] at h
  rcases h with ⟨rfl, rfl⟩ | ⟨rfl, rfl⟩ | ⟨rfl, rfl⟩ | ⟨rfl, rfl⟩ | ⟨rfl, rfl⟩ | ⟨rfl, rfl⟩ <;>
    simp [Report.mergeMetrics, Counters.setAll, Counters.get_set, Report.variablesMetric]

theorem status_reportOf_iff (left : List SkippedDocument) (merged : Merged) (css : String) :
    (reportOf left merged css).status = .degraded ↔ left ≠ [] := by
  rw [reportOf_eq]
  by_cases none_left : left = [] <;> simp [none_left]

theorem skippedWarning_mem_reportOf (left : List SkippedDocument) (merged : Merged)
    (css : String) :
    Report.skippedWarning ∈ (reportOf left merged css).warnings ↔ left ≠ [] := by
  have apart : Report.skippedWarning ≠ Report.noDocumentsWarning := by decide
  rw [reportOf_eq]
  by_cases none_left : left = []
  · by_cases none_merged : merged.stats.documents = 0 <;> simp [none_left, none_merged, apart]
  · simp [none_left]

theorem noDocumentsWarning_mem_reportOf (left : List SkippedDocument) (merged : Merged)
    (css : String) :
    Report.noDocumentsWarning ∈ (reportOf left merged css).warnings ↔
      left = [] ∧ merged.stats.documents = 0 := by
  have apart : Report.noDocumentsWarning ≠ Report.skippedWarning := by decide
  rw [reportOf_eq]
  by_cases none_left : left = []
  · by_cases none_merged : merged.stats.documents = 0 <;> simp [none_left, none_merged]
  · simp [none_left, apart]

theorem nodup_warnings_reportOf (left : List SkippedDocument) (merged : Merged) (css : String) :
    (reportOf left merged css).warnings.Nodup := by
  rw [reportOf_eq]
  by_cases none_left : left = []
  · by_cases none_merged : merged.stats.documents = 0 <;> simp [none_left, none_merged]
  · simp [none_left]

/-- **Left out without a trace.** Stylesheet, tokens, digest and counters are those of the
contributing documents alone. The report lists the load results that are left out, in order and with
their reasons, and its counts add up; status and warnings say exactly whether there is any, and
whether there was no load result at all; and no warning is given twice. -/
theorem rejections_leave_no_trace (options : CompileOptions) (inputs : List LoadResult) :
    (compile options inputs).css = (compileSurvivors options inputs).css ∧
      (compile options inputs).tokens = (compileSurvivors options inputs).tokens ∧
      (compile options inputs).report.digest = (compileSurvivors options inputs).report.digest ∧
      (compile options inputs).report.metrics = (compileSurvivors options inputs).report.metrics ∧
      (compile options inputs).report.skipped = rejections options.mode inputs ∧
      (∀ input, (accepted? options.mode input).isSome = !(rejection? options.mode input).isSome) ∧
      (compile options inputs).report.metric "documents" +
        (compile options inputs).report.skipped.length = inputs.length ∧
      ((compile options inputs).report.status = .degraded ↔
        (compile options inputs).report.skipped ≠ []) ∧
      ((compile options inputs).report.skipped ≠ [] ↔
        Report.skippedWarning ∈ (compile options inputs).report.warnings) ∧
      (Report.noDocumentsWarning ∈ (compile options inputs).report.warnings ↔ inputs = []) ∧
      (compile options inputs).report.warnings.Nodup := by
  have counted := length_survivors_add_length_rejections options.mode inputs
  have documents := documents_mergedSurvivors options inputs
  have metric : (compile options inputs).report.metric "documents" =
      (survivors options.mode inputs).length := by
    have recorded : ("documents", (mergedSurvivors options inputs).stats.documents) ∈
        (Report.variablesMetric, (mergedSurvivors options inputs).tokens.size) ::
          Report.mergeMetrics (mergedSurvivors options inputs).stats :=
      List.mem_cons_of_mem _ List.mem_cons_self
    rw [compile_eq, metric_reportOf _ _ _ recorded, documents]
  have skipped : (compile options inputs).report.skipped = rejections options.mode inputs := by
    rw [compile_eq, reportOf_eq]
  refine ⟨?_, ?_, ?_, ?_, skipped, isSome_accepted? options.mode, ?_, ?_, ?_, ?_, ?_⟩
  · rw [compileSurvivors, compile_eq, compile_eq, mergedSurvivors_map_ok]
  · rw [compileSurvivors, compile_eq, compile_eq, mergedSurvivors_map_ok]
  · simp only [compileSurvivors, compile_eq, reportOf_eq, mergedSurvivors_map_ok]
  · simp only [compileSurvivors, compile_eq, reportOf_eq, mergedSurvivors_map_ok]
  · rw [metric, skipped, counted]
  · rw [skipped, compile_eq, status_reportOf_iff]
  · rw [skipped, compile_eq, skippedWarning_mem_reportOf]
  · rw [compile_eq, noDocumentsWarning_mem_reportOf, documents, ← List.length_eq_zero_iff,
      ← List.length_eq_zero_iff]
    omega
  · rw [compile_eq]
    exact nodup_warnings_reportOf _ _ _

end DesignTokens.Compilation
