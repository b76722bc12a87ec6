import DesignTokens.Proofs.Merge.Correction

/-!
# Given names and added names

In merged documents the names that a document gives stand in the order in which they were first
given, each with the value of the last document that gives it. Added names change nothing of this,
and each has the value of a given name that it corrects (`given_tokens_prevail`).
-/

set_option autoImplicit false

namespace DesignTokens

namespace Merge

/-- The names that documents give, in order, one for each token of each document. -/
def givenNames (documents : List NormalTokens) : List CanonicalName :=
  documents.flatMap OrderedMap.keys

/-- The folded tokens of a list of documents. -/
def foldedTokens (documents : List NormalTokens) : NormalTokens :=
  OrderedMap.ofList (documents.flatMap OrderedMap.entries)

variable (documents : List NormalTokens)

theorem tokens_merge : (merge documents).tokens = withAddedNames (foldedTokens documents) := by
  rw [merge, foldedTokens]
  simp only [Fold.folded_ofDocuments]

/-- The folded names are the given ones, in the order in which they were first given. -/
theorem keys_foldedTokens : (foldedTokens documents).keys = (givenNames documents).eraseDups := by
  rw [foldedTokens, OrderedMap.keys_ofList, List.map_flatMap]
  rfl

theorem mem_givenNames (name : CanonicalName) :
    name ∈ givenNames documents ↔ name ∈ (foldedTokens documents).keys := by
  rw [keys_foldedTokens, List.mem_eraseDups]

/-- The last document with a name gives its folded token. -/
theorem exists_last_document {name : CanonicalName} (given : name ∈ givenNames documents) :
    ∃ before document after resolved,
      documents = before ++ document :: after ∧ document.get? name = some resolved ∧
      (∀ later ∈ after, name ∉ later.keys) ∧
      (foldedTokens documents).get? name = some resolved := by
  have folded := (mem_givenNames documents name).1 given
  rw [← OrderedMap.contains_iff, OrderedMap.contains, Option.isSome_iff_exists] at folded
  obtain ⟨resolved, found⟩ := folded
  have last := found
  rw [foldedTokens, OrderedMap.get?_ofList_flatMap_entries, List.findSomeRev?_eq_findSome?_reverse,
    List.findSome?_eq_some_iff] at last
  obtain ⟨later, document, earlier, split, value, absent⟩ := last
  refine ⟨earlier.reverse, document, later.reverse, resolved, ?_, value, ?_, found⟩
  · rw [← List.reverse_reverse documents, split]
    simp
  · intro other member known
    rw [← OrderedMap.contains_iff, OrderedMap.contains,
      absent other (List.mem_reverse.1 member)] at known
    exact absurd known (by simp)

end Merge

open Merge

/-- **Given tokens prevail.** Of the final names, those that some document gives are exactly the
names of the documents, in the order in which they were first given; each has the value of the last
document that gives it. Every other entry is the correction of a given name, and has the final value
of a given name that it corrects. -/
theorem given_tokens_prevail (documents : List NormalTokens) :
    ((merge documents).tokens.keys.filter fun name => name ∈ givenNames documents) =
      (givenNames documents).eraseDups ∧
    (∀ name ∈ givenNames documents, ∃ before document after resolved,
      documents = before ++ document :: after ∧ document.get? name = some resolved ∧
      (∀ later ∈ after, name ∉ later.keys) ∧
      (merge documents).tokens.get? name = some resolved.value) ∧
    ∀ name value, (name, value) ∈ (merge documents).tokens.entries →
      name ∉ givenNames documents →
      ∃ original ∈ givenNames documents, original.correction? = some name ∧
        (merge documents).tokens.get? original = some value := by
  rw [tokens_merge]
  refine ⟨?_, ?_, ?_⟩
  · have known : (fun name => decide (name ∈ givenNames documents)) =
        (foldedTokens documents).contains := by
      funext name
      rw [Bool.eq_iff_iff, decide_eq_true_iff, mem_givenNames, OrderedMap.contains_iff]
    rw [known, filter_keys_withAddedNames, keys_foldedTokens]
  · intro name given
    obtain ⟨before, document, after, resolved, split, value, absent, folded⟩ :=
      exists_last_document documents given
    exact ⟨before, document, after, resolved, split, value, absent,
      get?_withAddedNames _ folded⟩
  · intro name value member unknown
    rw [mem_givenNames] at unknown
    have found := (OrderedMap.get?_eq_some_iff _ name value).2 member
    rw [get?_withAddedNames_of_new _ unknown, Option.map_eq_some_iff] at found
    obtain ⟨resolved, isLast, rfl⟩ := found
    obtain ⟨original, last, folded⟩ := Option.bind_eq_some_iff.1 isLast
    rw [List.findRev?_eq_find?_reverse] at last
    refine ⟨original, ?_, by simpa using List.find?_some last, get?_withAddedNames _ folded⟩
    rw [mem_givenNames]
    exact List.mem_reverse.1 (List.mem_of_find?_eq_some last)

end DesignTokens
