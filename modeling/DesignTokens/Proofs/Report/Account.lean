import DesignTokens.Report.Basic

/-!
# What a report accounts for

A report that is built by leaving out one document after the other stays consistent: the status and
the warnings say exactly that some document was left out (`LeavesOut.foldl_skip`). A counter that is
set can be read, and no other counter changes (`Counters.get_set`).
-/

set_option autoImplicit false

namespace DesignTokens

/-! ## Counters -/

/-- Setting a counter changes that counter only. -/
theorem Counters.get_set (counters : Counters) (name : String) (count : Nat) (other : String) :
    (counters.set name count).get other = if name = other then count else counters.get other := by
  obtain ⟨entries, sorted⟩ := counters
  show (((place name count entries).find? fun entry => entry.1 == other).map Prod.snd).getD 0 =
    if name = other then count
    else ((entries.find? fun entry => entry.1 == other).map Prod.snd).getD 0
  induction entries with
  | nil => by_cases h : name = other <;> simp [place, h]
  | cons entry rest ih =>
      obtain ⟨n, c⟩ := entry
      have tail := ih (List.pairwise_cons.1 sorted).2
      simp only [place]
      split
      · by_cases h : name = other <;> simp [h]
      · split
        · next same =>
            subst same
            by_cases h : name = other <;> simp [h]
        · next different =>
            by_cases h : n = other
            · have apart : name ≠ other := fun same => different (same.trans h.symm)
              simp [h, apart]
            · simpa [h] using tail

namespace Report

/-! ## Leaving documents out -/

/-- A report in which exactly the listed documents have been left out and nothing has been
counted. -/
structure LeavesOut (report : Report) (left : List SkippedDocument) : Prop where
  skipped : report.skipped = left
  status : report.status = if left = [] then .ok else .degraded
  warnings : report.warnings = if left = [] then [] else [skippedWarning]
  metrics : report.metrics = .empty

theorem leavesOut_initial : initial.LeavesOut [] := ⟨rfl, rfl, rfl, rfl⟩

/-- One more document. -/
theorem LeavesOut.skip {report : Report} {left : List SkippedDocument} (h : report.LeavesOut left)
    (document : SkippedDocument) : (report.skip document).LeavesOut (left ++ [document]) := by
  have warned : (report.skip document).warnings = [skippedWarning] := by
    by_cases none_left : left = []
    · simp [Report.skip, warn, h.warnings, none_left]
    · simp [Report.skip, warn, h.warnings, none_left]
  have unchanged : (report.skip document).skipped = report.skipped ++ [document] ∧
      (report.skip document).status = .degraded ∧
      (report.skip document).metrics = report.metrics := by
    rw [Report.skip, warn]
    split <;> exact ⟨rfl, rfl, rfl⟩
  obtain ⟨skipped, status, metrics⟩ := unchanged
  exact ⟨by rw [skipped, h.skipped], by simp [status], by simp [warned], by rw [metrics, h.metrics]⟩

/-- Any number of documents, one after the other. -/
theorem LeavesOut.foldl_skip {report : Report} {left : List SkippedDocument}
    (h : report.LeavesOut left) (more : List SkippedDocument) :
    (more.foldl Report.skip report).LeavesOut (left ++ more) := by
  induction more generalizing report left with
  | nil => simpa using h
  | cons document rest ih => simpa using ih (h.skip document)

end Report

end DesignTokens
