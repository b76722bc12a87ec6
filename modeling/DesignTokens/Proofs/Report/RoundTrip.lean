import DesignTokens.Report.Encoding

/-!
# Reports that are read back

A report that is written as JSON is read back as it was, if its counts are unsigned integers of 64
bits (`Report.reports_are_read_back`). Its parts stand under different names, a digest that is not set
under none; the counters are set one after the other in the order in which they are kept, so each
takes the last place (`Counters.setAll_entries`).
-/

set_option autoImplicit false

namespace DesignTokens

/-! ## Counters -/

namespace Counters

/-- Setting counters that stand behind all others, in order, adds them at the end. -/
theorem entries_setAll (start : Counters) {further : List (String × Nat)}
    (sorted : (start.entries ++ further).Pairwise fun first second => first.1 < second.1) :
    (start.setAll further).entries = start.entries ++ further := by
  induction further generalizing start with
  | nil => exact (List.append_nil _).symm
  | cons entry rest ih =>
      -- The next counter stands behind all that are there, so it is placed last.
      have last : (start.set entry.1 entry.2).entries = start.entries ++ [entry] :=
        place_last fun earlier member =>
          (List.pairwise_append.1 sorted).2.2 earlier member entry List.mem_cons_self
      have moved : start.entries ++ entry :: rest =
          (start.set entry.1 entry.2).entries ++ rest := by
        rw [last, List.append_assoc, List.singleton_append]
      rw [moved] at sorted ⊢
      exact ih _ sorted

/-- Counters are made again from their entries. -/
theorem setAll_entries (counters : Counters) : empty.setAll counters.entries = counters :=
  ext_entries (entries_setAll empty counters.sorted)

end Counters

namespace Report

/-! ## Reading the parts -/

theorem text?_string (text : String) : text? (.string text) = some text := rfl

theorem caseName?_string (name : String) : caseName? (.string name) = some name := rfl

theorem ofName?_name (status : BuildStatus) : BuildStatus.ofName? status.name = some status := by
  cases status with
  | ok => rfl
  | degraded => rfl

theorem skipped?_toJson (skipped : SkippedDocument) : skipped? skipped.toJson = some skipped := rfl

theorem digest?_toJson (digest : Digest) : digest? digest.toJson = some digest := by
  obtain ⟨algorithm, encoded⟩ := digest
  cases algorithm with
  | sha256 => rfl

/-- A digest that is set is not written as null, and one that is not set is not written at all. -/
theorem optionalDigest?_toJson (digest : Option Digest) :
    optionalDigest? (digest.map Digest.toJson) = some digest := by
  cases digest with
  | none => rfl
  | some digest => exact congrArg (Option.map some) (digest?_toJson digest)

/-- Items that are read back one by one are read back together. -/
theorem mapM_map_of_inverse {α β : Type} {write : α → β} {read? : β → Option α}
    (inverse : ∀ a, read? (write a) = some a) (items : List α) :
    (items.map write).mapM read? = some items := by
  have composed : read? ∘ write = fun a => pure a := funext inverse
  rw [List.mapM_map, composed]
  exact List.mapM_pure.trans (congrArg some (List.map_id' items))

theorem count?_natCast (n : Nat) :
    count? (.number (.integer n)) = if n < UInt64.size then some n else none := by
  have bound : n ≤ maxCount ↔ n < UInt64.size := Nat.le_sub_one_iff_lt (by decide)
  simp [count?, bound]

theorem mapM_count?_entries (entries : List (String × Nat)) :
    (entries.map fun entry => (entry.1, Json.number (.integer entry.2))).mapM
        (fun member => (count? member.2).map fun n => (member.1, n)) =
      if ∀ entry ∈ entries, entry.2 < UInt64.size then some entries else none := by
  induction entries with
  | nil => rfl
  | cons entry rest ih =>
      simp only [List.map_cons, List.mapM_cons, ih, count?_natCast, List.forall_mem_cons]
      by_cases fits : entry.2 < UInt64.size
      · simp only [fits, if_true, true_and]
        split
        · rfl
        · rfl
      · simp only [fits, if_false, false_and]
        rfl

/-- Counters are read back if every count has at most 64 bits, and otherwise refused. -/
theorem counters?_toJson (counters : Counters) :
    counters? counters.toJson =
      if ∀ entry ∈ counters.entries, entry.2 < UInt64.size then some counters else none := by
  rw [Counters.toJson.eq_1, counters?.eq_1, mapM_count?_entries]
  split
  · exact congrArg some counters.setAll_entries
  · rfl

/-! ## Reading reports -/

theorem parts?_toJson (report : Report) :
    parts? ["status", "warnings", "metrics", "skipped", "digest"] report.toJson =
      some [some (.string report.status.name), some (.array (report.warnings.map Json.string)),
        some report.metrics.toJson, some (.array (report.skipped.map SkippedDocument.toJson)),
        report.digest.map Digest.toJson] := by
  obtain ⟨status, warnings, metrics, skipped, digest⟩ := report
  cases digest with
  | none => rfl
  | some digest => rfl

/-- **A report is read back as it was written**, whatever its status, its warnings, the documents left
out and its digest are, exactly if its counts are unsigned integers of 64 bits. -/
theorem reports_are_read_back (report : Report) :
    ofJson? report.toJson = some report ↔ ∀ entry ∈ report.metrics.entries, entry.2 < UInt64.size := by
  have warnings : (report.warnings.map Json.string).mapM text? = some report.warnings :=
    mapM_map_of_inverse text?_string report.warnings
  have skipped := mapM_map_of_inverse skipped?_toJson report.skipped
  rw [ofJson?, parts?_toJson]
  simp only [Option.bind_eq_bind, Option.bind_some, caseName?_string, ofName?_name, items?, warnings,
    skipped, counters?_toJson, optionalDigest?_toJson]
  split
  · next counted => exact iff_of_true rfl counted
  · next tooLarge => exact iff_of_false (by simp) tooLarge

end Report

end DesignTokens
