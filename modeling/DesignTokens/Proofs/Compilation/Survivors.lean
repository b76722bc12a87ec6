import DesignTokens.Compilation
import DesignTokens.Proofs.Merge.Correction
import DesignTokens.Proofs.Resolution.Normalization

/-!
# The documents that contribute

A load result contributes to a compilation if it is a document and the document can be collected;
otherwise it is left out with a reason. The folded tokens of a compilation are said here by the
leaves of the documents that contribute: which names there are (`keys_folded`) and where their
values come from (`get?_folded`).
-/

set_option autoImplicit false

namespace DesignTokens

/-- The leaves of a document. -/
def Document.leaves (document : Document) : List Tree.Leaf := Tree.leaves document.tree

namespace Compilation

/-- The document of a load result, if it contributes. -/
def accepted? (mode : CollectMode) : LoadResult → Option Document
  | .error _ => none
  | .ok document => if (collect mode document.tree).isOk then some document else none

/-- The reason why a load result is left out, if it is: that of the loader, or the error of the
collection. -/
def rejection? (mode : CollectMode) : LoadResult → Option SkippedDocument
  | .error skipped => some skipped
  | .ok document =>
      match collect mode document.tree with
      | .ok _ => none
      | .error e => some ⟨document.id, e.message⟩

/-- The documents that contribute, in order. -/
def survivors (mode : CollectMode) (inputs : List LoadResult) : List Document :=
  inputs.filterMap (accepted? mode)

/-- The load results that are left out, with their reasons, in order. -/
def rejections (mode : CollectMode) (inputs : List LoadResult) : List SkippedDocument :=
  inputs.filterMap (rejection? mode)

/-- The leaves of the documents that contribute: first by document, then depth first. -/
def leaves (mode : CollectMode) (inputs : List LoadResult) : List Tree.Leaf :=
  (survivors mode inputs).flatMap Document.leaves

/-- The merge of the documents that contribute. -/
def mergedSurvivors (options : CompileOptions) (inputs : List LoadResult) : Merged :=
  merge ((survivors options.mode inputs).map fun document =>
    normalTokens options.rules document.leaves)

/-- The folded tokens of the documents that contribute. -/
def folded (options : CompileOptions) (inputs : List LoadResult) : NormalTokens :=
  OrderedMap.ofList (((survivors options.mode inputs).map fun document =>
    normalTokens options.rules document.leaves).flatMap OrderedMap.entries)

/-! ## Contributing or left out -/

/-- The tokens collected from a document are its leaves. -/
theorem tokens_of_collect {mode : CollectMode} {tree : Json} {tokens : RawTokens}
    (h : collect mode tree = .ok tokens) :
    tokens = OrderedMap.ofList ((Tree.leaves tree).map Tree.Leaf.token) := by
  rw [collect, collectAt_eq_gather, Collection.gather] at h
  split at h
  · exact absurd h (by simp)
  · exact (Except.ok.inj h).symm

/-- A document contributes if none of its leaves is refused. -/
theorem accepted?_ok (mode : CollectMode) (document : Document) :
    accepted? mode (.ok document) =
      if document.leaves.any (Tree.Leaf.isRefused mode) then none else some document := by
  rw [accepted?, collect, collectAt_eq_gather, Collection.gather]
  cases refused : document.leaves.find? (Tree.Leaf.isRefused mode) with
  | none =>
      have none_refused : document.leaves.any (Tree.Leaf.isRefused mode) = false := by
        rw [List.any_eq_false]
        exact List.find?_eq_none.1 refused
      rw [Document.leaves, Tree.leaves] at refused
      simp [refused, none_refused, Except.isOk, Except.toBool]
  | some leaf =>
      have some_refused : document.leaves.any (Tree.Leaf.isRefused mode) = true :=
        List.any_eq_true.2 ⟨leaf, List.mem_of_find?_eq_some refused, List.find?_some refused⟩
      rw [Document.leaves, Tree.leaves] at refused
      simp [refused, some_refused, Except.isOk, Except.toBool]

/-- A document whose leaves are not refused contributes on its own. -/
theorem survivors_singleton {mode : CollectMode} {document : Document}
    (taken : document.leaves.any (Tree.Leaf.isRefused mode) = false) :
    survivors mode [.ok document] = [document] := by
  simp [survivors, accepted?_ok, taken]

theorem kept_tokensOf (options : CompileOptions) (input : LoadResult) :
    kept (tokensOf options input) =
      (accepted? options.mode input).map fun document =>
        normalTokens options.rules document.leaves := by
  cases input with
  | error skipped => rfl
  | ok document =>
      cases collected : collect options.mode document.tree with
      | error e => simp [tokensOf, accepted?, kept, collected, Except.isOk, Except.toBool]
      | ok tokens =>
          simp [tokensOf, accepted?, kept, collected, Except.isOk, Except.toBool,
            tokens_of_collect collected, normalTokens, Document.leaves]

theorem skipped_tokensOf (options : CompileOptions) (input : LoadResult) :
    skipped (tokensOf options input) = rejection? options.mode input := by
  cases input with
  | error skipped => rfl
  | ok document =>
      cases collected : collect options.mode document.tree <;>
        simp [tokensOf, rejection?, skipped, collected]

/-- A load result contributes exactly if it is not left out. -/
theorem isSome_accepted? (mode : CollectMode) (input : LoadResult) :
    (accepted? mode input).isSome = !(rejection? mode input).isSome := by
  cases input with
  | error skipped => rfl
  | ok document =>
      cases collected : collect mode document.tree <;>
        simp [accepted?, rejection?, collected, Except.isOk, Except.toBool]

/-- An accepted document stands in the load result. -/
theorem eq_ok_of_accepted? {mode : CollectMode} {input : LoadResult} {document : Document}
    (h : accepted? mode input = some document) : input = .ok document := by
  cases input with
  | error skipped => simp [accepted?] at h
  | ok other =>
      simp only [accepted?, Option.ite_none_right_eq_some, Option.some.injEq] at h
      rw [h.2]

/-! ## What a compilation folds -/

theorem filterMap_kept (options : CompileOptions) (inputs : List LoadResult) :
    (inputs.map (tokensOf options)).filterMap kept =
      (survivors options.mode inputs).map fun document =>
        normalTokens options.rules document.leaves := by
  rw [List.filterMap_map, survivors, List.map_filterMap]
  congr 1
  funext input
  exact kept_tokensOf options input

theorem filterMap_skipped (options : CompileOptions) (inputs : List LoadResult) :
    (inputs.map (tokensOf options)).filterMap skipped = rejections options.mode inputs := by
  rw [List.filterMap_map, rejections]
  congr 1
  funext input
  exact skipped_tokensOf options input

/-- A compilation merges the documents that contribute and reports the others. -/
theorem compile_eq (options : CompileOptions) (inputs : List LoadResult) :
    compile options inputs =
      { css := TokenMap.stylesheet (mergedSurvivors options inputs).tokens
        tokens := (mergedSurvivors options inputs).tokens
        report := reportOf (rejections options.mode inputs) (mergedSurvivors options inputs)
          (TokenMap.stylesheet (mergedSurvivors options inputs).tokens) } := by
  simp only [compile, filterMap_kept, filterMap_skipped, mergedSurvivors]

/-- Load results that give the same tokens or are left out alike are compiled alike. -/
theorem compile_congr {options others : CompileOptions} {first second : List LoadResult}
    (same : first.map (tokensOf options) = second.map (tokensOf others)) :
    compile options first = compile others second := by
  simp only [compile, same]

/-- Only the documents that contribute make a difference to the stylesheet. -/
theorem css_compile_congr {options : CompileOptions} {first second : List LoadResult}
    (same : survivors options.mode first = survivors options.mode second) :
    (compile options first).css = (compile options second).css := by
  rw [compile_eq, compile_eq]
  simp only [mergedSurvivors, same]

theorem tokens_compile (options : CompileOptions) (inputs : List LoadResult) :
    (compile options inputs).tokens = Merge.withAddedNames (folded options inputs) := by
  rw [compile_eq, mergedSurvivors, merge]
  simp only [Merge.Fold.folded_ofDocuments, folded]

/-- The folded names are those of the leaves, in the order of first appearance. -/
theorem keys_folded (options : CompileOptions) (inputs : List LoadResult) :
    (folded options inputs).keys =
      ((leaves options.mode inputs).filterMap Tree.Leaf.name?).eraseDups := by
  rw [folded, OrderedMap.keys_ofList, List.map_flatMap, List.flatMap_map, leaves,
    List.filterMap_flatMap]
  apply eraseDups_flatMap_congr
  intro document _
  have names := keys_normalTokens options.rules document.leaves
  rw [OrderedMap.keys] at names
  rw [names, eraseDups_eq_self (nodup_eraseDups _)]

/-- The value of a name comes from the last document that has it, and there from its decisive
leaf. -/
theorem get?_folded (options : CompileOptions) (inputs : List LoadResult) (name : CanonicalName) :
    (folded options inputs).get? name =
      (survivors options.mode inputs).findSomeRev? fun document =>
        (decisiveLeaf? name document.leaves).map fun leaf =>
          options.rules.resolve name.text leaf.value := by
  rw [folded, OrderedMap.get?_ofList_flatMap_entries]
  simp only [List.findSomeRev?_eq_findSome?_reverse, ← List.map_reverse, List.findSome?_map]
  congr 1
  funext document
  exact get?_normalTokens options.rules document.leaves name

end Compilation

end DesignTokens
