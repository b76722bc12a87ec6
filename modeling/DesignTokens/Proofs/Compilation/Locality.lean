import DesignTokens.Proofs.Compilation.Names

/-!
# One more document

What a further document at the end does to a compilation. Names that no leaf of it has stay in their
order, and those of them that correct none of its names keep their values; a load result that is
left out changes nothing (`further_document_is_local`).
-/

set_option autoImplicit false

namespace DesignTokens

/-- The names of the leaves of a document, one for every leaf that has a name. -/
def Document.names (document : Document) : List CanonicalName :=
  document.leaves.filterMap Tree.Leaf.name?

namespace Compilation

variable (options : CompileOptions) (inputs : List LoadResult)

/-! ## The folded tokens of one more document -/

theorem survivors_append_singleton (mode : CollectMode) (added : LoadResult) :
    survivors mode (inputs ++ [added]) = survivors mode inputs ++ (accepted? mode added).toList := by
  rw [survivors, List.filterMap_append]
  cases accepted : accepted? mode added <;> simp [accepted, survivors]

/-- The folded tokens with those of one more document. -/
theorem folded_append {added : LoadResult} {document : Document}
    (accepted : accepted? options.mode added = some document) :
    folded options (inputs ++ [added]) = (folded options inputs).insertAll
      (normalTokens options.rules document.leaves).entries := by
  rw [folded, survivors_append_singleton, accepted, Option.toList_some, List.map_append,
    List.flatMap_append, folded, OrderedMap.ofList, OrderedMap.insertAll_append]
  simp [OrderedMap.ofList]

/-- The names of the normalized tokens of a document are those of its leaves. -/
theorem mem_names_normalTokens (table : RuleTable) (document : Document) (name : CanonicalName) :
    name ∈ (normalTokens table document.leaves).entries.map Prod.fst ↔ name ∈ document.names := by
  have keys := keys_normalTokens table document.leaves
  rw [OrderedMap.keys] at keys
  rw [keys, List.mem_eraseDups, Document.names]

/-- A load result that is left out changes neither the tokens nor the stylesheet. -/
theorem compile_append_of_rejected {added : LoadResult}
    (rejected : accepted? options.mode added = none) :
    (compile options (inputs ++ [added])).tokens = (compile options inputs).tokens ∧
      (compile options (inputs ++ [added])).css = (compile options inputs).css := by
  have same : survivors options.mode (inputs ++ [added]) = survivors options.mode inputs := by
    rw [survivors_append_singleton, rejected, Option.toList_none, List.append_nil]
  rw [compile_eq, compile_eq, mergedSurvivors, mergedSurvivors, same]
  exact ⟨rfl, rfl⟩

/-- **A further document is local.** Put at the end of the input, it keeps every final name; the
final names that no leaf of it has stay in their order; and those of them that are no correction of
a name of its leaves keep their values. A load result that is left out changes nothing of the tokens
and the stylesheet. -/
theorem further_document_is_local (document : Document) :
    (∀ name ∈ (compile options inputs).tokens.keys,
      name ∈ (compile options (inputs ++ [.ok document])).tokens.keys) ∧
    ((compile options (inputs ++ [.ok document])).tokens.keys.filter fun name =>
        name ∈ (compile options inputs).tokens.keys ∧ name ∉ document.names) =
      ((compile options inputs).tokens.keys.filter fun name => name ∉ document.names) ∧
    (∀ name ∈ (compile options inputs).tokens.keys, name ∉ document.names →
      (∀ own ∈ document.names, own.correction? ≠ some name) →
      (compile options (inputs ++ [.ok document])).tokens.get? name =
        (compile options inputs).tokens.get? name) ∧
    ∀ rejected, accepted? options.mode rejected = none →
      (compile options (inputs ++ [rejected])).tokens = (compile options inputs).tokens ∧
        (compile options (inputs ++ [rejected])).css = (compile options inputs).css := by
  cases accepted : accepted? options.mode (.ok document) with
  | none =>
      obtain ⟨tokens, -⟩ := compile_append_of_rejected options inputs accepted
      rw [tokens]
      refine ⟨fun name known => known, ?_, fun name _ _ _ => rfl,
        fun rejected => compile_append_of_rejected options inputs⟩
      apply List.filter_congr
      intro name known
      simp [known]
  | some taken =>
      have same : document = taken := Except.ok.inj (eq_ok_of_accepted? accepted)
      subst same
      simp only [tokens_compile, folded_append options inputs accepted,
        ← mem_names_normalTokens options.rules document]
      refine ⟨?_, ?_, ?_, ?_⟩
      · exact fun name known => Merge.keys_withAddedNames_subset _ _ known
      · exact Merge.filter_keys_withAddedNames_insertAll _ _
      · intro name _ other uncorrected
        exact Merge.get?_withAddedNames_insertAll _ _ other uncorrected
      · intro rejected left
        simpa only [tokens_compile] using compile_append_of_rejected options inputs left

end Compilation

end DesignTokens
