import DesignTokens.Proofs.Merge.Originals
import Mathlib.Data.List.Nodup
import Mathlib.Data.List.Pairwise

/-!
# The counts of a merge

What the counts of a merge have to do with the merged map. Every token is the first one of its name
or an override (`tokens_eq_overrides_add_names`). The count of corrections is one for each name that
has an added correction, so that it is the number of added names only if no two names share one
(`added_names_eq_corrections_iff`). The count of aliases is that of the names that documents give;
added names that take over the value of a reference are not among them
(`aliases_count_given_names`).
-/

set_option autoImplicit false

namespace DesignTokens

/-! ## Counting in maps -/

/-- The values of a kind are the keys whose value is of that kind. -/
theorem OrderedMap.countP_values {κ α : Type} [DecidableEq κ] (map : OrderedMap κ α)
    (kind : α → Bool) :
    map.values.countP kind = map.keys.countP fun key => (map.get? key).any kind := by
  rw [values, keys, List.countP_map, List.countP_map]
  apply List.countP_congr
  rintro ⟨key, value⟩ member
  have found := (map.get?_eq_some_iff key value).2 member
  simp [found]

namespace Merge

/-! ## Tokens and overrides -/

/-- The tokens folded so far are those that were new and those that replaced others. -/
def Fold.Balanced (fold : Fold) : Prop := fold.tokens = fold.overrides + fold.folded.keys.length

/-- One more token is new, or an override. -/
theorem Fold.Balanced.addToken {fold : Fold} (h : fold.Balanced)
    (token : CanonicalName × Resolved) : (fold.addToken token).Balanced := by
  have balance : fold.tokens = fold.overrides + fold.folded.keys.length := h
  have keys := congrArg List.length (fold.folded.keys_insert token.1 token.2)
  show fold.tokens + 1 =
    (if fold.folded.contains token.1 then fold.overrides + 1 else fold.overrides) +
      (fold.folded.insert token.1 token.2).keys.length
  by_cases known : token.1 ∈ fold.folded.keys
  · rw [if_pos known] at keys
    rw [if_pos ((fold.folded.contains_iff token.1).2 known)]
    omega
  · rw [if_neg known, List.length_append, List.length_singleton] at keys
    rw [if_neg (mt (fold.folded.contains_iff token.1).1 known)]
    omega

/-- Any number of documents, one after the other. -/
theorem Fold.balanced_ofDocuments (documents : List NormalTokens) :
    (ofDocuments documents).Balanced := by
  have tokens : ∀ (list : List (CanonicalName × Resolved)) (fold : Fold), fold.Balanced →
      (list.foldl Fold.addToken fold).Balanced := by
    intro list
    induction list with
    | nil => exact fun _ h => h
    | cons token rest ih => exact fun fold h => ih _ (h.addToken token)
  have general : ∀ fold : Fold, fold.Balanced → (documents.foldl addDocument fold).Balanced := by
    induction documents with
    | nil => exact fun _ h => h
    | cons document rest ih => exact fun fold h => ih _ (tokens document.entries fold h)
  exact general .start rfl

variable (documents : List NormalTokens)

theorem tokens_eq_overrides_add_names :
    (merge documents).stats.tokens =
      (merge documents).stats.overrides + (givenNames documents).eraseDups.length := by
  have balance := Fold.balanced_ofDocuments documents
  rw [Fold.Balanced, Fold.folded_ofDocuments, ← foldedTokens, keys_foldedTokens] at balance
  exact balance

/-! ## Given and added names -/

/-- The names of the merged map that documents give. -/
theorem filter_given_keys_merge :
    (merge documents).tokens.keys.filter (fun name => name ∈ givenNames documents) =
      (foldedTokens documents).keys := by
  have known : (fun name => decide (name ∈ givenNames documents)) =
      (foldedTokens documents).contains := by
    funext name
    rw [Bool.eq_iff_iff, decide_eq_true_iff, mem_givenNames, OrderedMap.contains_iff]
  rw [known, tokens_merge, filter_keys_withAddedNames]

/-- The names of the merged map that documents do not give. -/
theorem filter_added_keys_merge :
    (merge documents).tokens.keys.filter (fun name => name ∉ givenNames documents) =
      ((foldedTokens documents).keys.filterMap (addedName? (foldedTokens documents))).eraseDups := by
  have unknown : (fun name => decide (name ∉ givenNames documents)) =
      fun name => !(foldedTokens documents).contains name := by
    funext name
    rw [Bool.eq_iff_iff, decide_eq_true_iff, mem_givenNames, Bool.not_eq_true',
      Bool.eq_false_iff, Ne, OrderedMap.contains_iff]
  rw [unknown, tokens_merge, filter_new_keys_withAddedNames]

/-- The entries of the merged map are those of given names and those of added ones. -/
theorem countP_keys_merge (kind : CanonicalName → Bool) :
    (merge documents).tokens.keys.countP kind =
      (foldedTokens documents).keys.countP kind +
        (merge documents).tokens.keys.countP fun name =>
          name ∉ givenNames documents && kind name := by
  rw [List.countP_eq_countP_filter_add _ kind fun name => decide (name ∈ givenNames documents),
    filter_given_keys_merge, List.countP_filter]
  congr 2
  funext name
  rw [Bool.and_comm, decide_not]

theorem size_merge :
    (merge documents).tokens.size = (givenNames documents).eraseDups.length +
      (merge documents).tokens.keys.countP fun name => name ∉ givenNames documents := by
  have size : (merge documents).tokens.size = (merge documents).tokens.keys.length := by
    rw [OrderedMap.size, OrderedMap.keys, List.length_map]
  have all := countP_keys_merge documents fun _ => true
  simp only [List.countP_true, Bool.and_true] at all
  rw [size, all, keys_foldedTokens]

/-! ## Corrections -/

/-- No two of the names have one correction that is not among them. -/
def CorrectedApart (names : List CanonicalName) : Prop :=
  ∀ first ∈ names, ∀ second ∈ names, ∀ corrected ∉ names,
    first.correction? = some corrected → second.correction? = some corrected → first = second

theorem correctedApart_congr {names names' : List CanonicalName}
    (same : ∀ name, name ∈ names ↔ name ∈ names') :
    CorrectedApart names ↔ CorrectedApart names' := by
  simp only [CorrectedApart, same]

/-- Names are corrected apart exactly if no added name is the correction of two. -/
theorem correctedApart_iff (folded : NormalTokens) :
    CorrectedApart folded.keys ↔ (folded.keys.filterMap (addedName? folded)).Nodup := by
  rw [List.Nodup, List.pairwise_filterMap]
  simp only [addedName?_eq_some_iff]
  constructor
  · intro apart
    refine folded.keys_nodup.pairwise_of_forall_ne ?_
    rintro first isFirst second isSecond differ corrected ⟨correction, new⟩ _ ⟨correction', -⟩ rfl
    exact differ (apart first isFirst second isSecond corrected new correction correction')
  · intro distinct first isFirst second isSecond corrected new correction correction'
    by_contra differ
    have symmetric : Std.Symm fun first second : CanonicalName => ∀ corrected,
        first.correction? = some corrected ∧ corrected ∉ folded.keys → ∀ corrected',
          second.correction? = some corrected' ∧ corrected' ∉ folded.keys →
            corrected ≠ corrected' :=
      ⟨fun _ _ apart corrected added corrected' added' => (apart corrected' added' corrected added).symm⟩
    exact distinct.forall isFirst isSecond differ corrected ⟨correction, new⟩ corrected
      ⟨correction', new⟩ rfl

/-- The count of corrections is that of the added names exactly if no two names share one. -/
theorem added_names_eq_corrections_iff :
    ((merge documents).tokens.keys.countP fun name => name ∉ givenNames documents) =
        (merge documents).stats.corrections ↔
      CorrectedApart (givenNames documents) := by
  have corrections : (merge documents).stats.corrections =
      ((foldedTokens documents).keys.filterMap (addedName? (foldedTokens documents))).length := by
    rw [List.length_filterMap_eq_countP, foldedTokens, ← Fold.folded_ofDocuments]
    rfl
  rw [List.countP_eq_length_filter, filter_added_keys_merge, corrections, length_eraseDups_eq_iff,
    ← correctedApart_iff]
  exact correctedApart_congr fun name => (mem_givenNames documents name).symm

end Merge

open Merge

/-! ## Aliases -/

/-- **The count of aliases is that of the given names.** It counts the names that documents give and
whose value comes from a reference. It is the number of all entries with such a value exactly if no
added name takes one over. -/
theorem aliases_count_given_names (documents : List NormalTokens) :
    (merge documents).stats.aliases =
      ((merge documents).tokens.keys.countP fun name =>
        name ∈ givenNames documents && (source? documents name).any Resolved.isAlias) ∧
    ((merge documents).stats.aliases =
        ((merge documents).tokens.keys.countP fun name =>
          (source? documents name).any Resolved.isAlias) ↔
      ∀ name ∈ (merge documents).tokens.keys, name ∉ givenNames documents →
        (source? documents name).any Resolved.isAlias = false) := by
  have given : (merge documents).stats.aliases =
      (foldedTokens documents).keys.countP fun name =>
        (source? documents name).any Resolved.isAlias := by
    have counted : (merge documents).stats.aliases =
        (foldedTokens documents).values.countP Resolved.isAlias := by
      rw [foldedTokens, ← Fold.folded_ofDocuments]
      rfl
    rw [counted, OrderedMap.countP_values]
    apply List.countP_congr
    intro name known
    obtain ⟨-, -, -, resolved, -, -, -, found⟩ :=
      exists_last_document documents ((mem_givenNames documents name).2 known)
    rw [source?, found, Option.some_or]
  refine ⟨?_, ?_⟩
  · rw [given, ← filter_given_keys_merge, List.countP_filter]
    simp only [Bool.and_comm]
  · rw [given, countP_keys_merge, Nat.left_eq_add, List.countP_eq_zero]
    simp

/-! ## References under misspelt names -/

/-- A misspelt name. -/
def girdName : CanonicalName := ⟨"gird-a", by decide⟩

/-- One document, in which a misspelt name refers to another token. -/
def misspeltReference : List NormalTokens :=
  [.ofList [(girdName, ⟨.string "var(--x)", .alias⟩)]]

/-- **An added name with the value of a reference is not counted**: two entries have it, and one is
counted. -/
theorem added_alias_is_not_counted :
    (merge misspeltReference).stats.aliases = 1 ∧
      ((merge misspeltReference).tokens.keys.countP fun name =>
        (source? misspeltReference name).any Resolved.isAlias) = 2 := by
  constructor <;> rfl

end DesignTokens
