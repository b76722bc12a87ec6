import DesignTokens.Proofs.Merge.Counts
import Mathlib.Data.Set.Card

/-!
# Overrides between documents

A merge counts an override where it meets a name that an earlier document has. What it counts is said
here without the running map: the places, a document and a name in it, such that the name is in a
document before it as well (`tally_merge`). Names of one document never override each other, so there
is no override exactly if no two documents have a name in common.
-/

set_option autoImplicit false

namespace DesignTokens

/-! ## Places of overrides -/

/-- At a place, the number of a document and a name in it, an earlier document is overridden: it has
the name as well. The documents are given by their names. -/
def IsOverride (names : List (List CanonicalName)) (place : Nat × CanonicalName) : Prop :=
  ∃ own, names[place.1]? = some own ∧ place.2 ∈ own ∧
    ∃ i < place.1, ∃ earlier, names[i]? = some earlier ∧ place.2 ∈ earlier

/-- The names that stand before a document. -/
theorem exists_earlier_iff (names : List (List CanonicalName)) (n : Nat) (name : CanonicalName) :
    (∃ i < n, ∃ earlier, names[i]? = some earlier ∧ name ∈ earlier) ↔
      name ∈ (names.take n).flatten := by
  rw [List.mem_flatten]
  constructor
  · rintro ⟨i, before, earlier, found, member⟩
    refine ⟨earlier, List.mem_of_getElem? (i := i) ?_, member⟩
    rw [List.getElem?_take_of_lt before, found]
  · rintro ⟨earlier, taken, member⟩
    obtain ⟨i, found⟩ := List.getElem?_of_mem taken
    rw [List.getElem?_take] at found
    split at found
    · next before => exact ⟨i, before, earlier, found, member⟩
    · exact absurd found (by simp)

/-- One more document adds its names that are known from before. -/
theorem isOverride_append_iff (names : List (List CanonicalName)) (own : List CanonicalName)
    (place : Nat × CanonicalName) :
    IsOverride (names ++ [own]) place ↔
      IsOverride names place ∨
        place.1 = names.length ∧ place.2 ∈ own ∧ place.2 ∈ names.flatten := by
  obtain ⟨n, name⟩ := place
  simp only [IsOverride, exists_earlier_iff]
  rcases Nat.lt_trichotomy n names.length with before | rfl | behind
  · have same : (names ++ [own]).take n = names.take n :=
      List.take_append_of_le_length (Nat.le_of_lt before)
    simp [List.getElem?_append_left before, same, Nat.ne_of_lt before]
  · simp
  · have absent : (names ++ [own])[n]? = none := by
      rw [List.getElem?_eq_none_iff, List.length_append, List.length_singleton]
      exact behind
    simp [absent, List.getElem?_eq_none (Nat.le_of_lt behind), Nat.ne_of_gt behind]

/-- The elements of a kind in a list without repetitions are as many as are counted. -/
theorem encard_mem_and {α : Type} {list : List α} (distinct : list.Nodup) (kind : α → Prop)
    [DecidablePred kind] :
    {a | a ∈ list ∧ kind a}.encard = (list.countP fun a => kind a : Nat) := by
  classical
  have same : {a | a ∈ list ∧ kind a} = ((list.filter fun a => kind a).toFinset : Set α) := by
    ext a
    simp
  rw [same, Set.encard_coe_eq_coe_finsetCard, List.toFinset_card_of_nodup (distinct.filter _),
    List.countP_eq_length_filter]

/-- One more document adds as many overrides as it has names that are known from before. -/
theorem encard_isOverride_append (names : List (List CanonicalName)) {own : List CanonicalName}
    (distinct : own.Nodup) :
    {place | IsOverride (names ++ [own]) place}.encard =
      {place | IsOverride names place}.encard +
        (own.countP fun name => name ∈ names.flatten : Nat) := by
  have split : {place | IsOverride (names ++ [own]) place} =
      {place | IsOverride names place} ∪
        Prod.mk names.length '' {name | name ∈ own ∧ name ∈ names.flatten} := by
    ext ⟨n, name⟩
    rw [Set.mem_ofPred_eq, isOverride_append_iff, Set.mem_union, Set.mem_image]
    constructor
    · rintro (earlier | ⟨rfl, known⟩)
      · exact Or.inl earlier
      · exact Or.inr ⟨name, known, rfl⟩
    · rintro (earlier | ⟨_, known, same⟩)
      · exact Or.inl earlier
      · obtain ⟨rfl, rfl⟩ := Prod.mk.inj same
        exact Or.inr ⟨rfl, known⟩
  -- The earlier documents have smaller numbers than the new one.
  have apart : Disjoint {place | IsOverride names place}
      (Prod.mk names.length '' {name | name ∈ own ∧ name ∈ names.flatten}) := by
    rw [Set.disjoint_left]
    rintro _ ⟨own, found, -⟩ ⟨name, -, rfl⟩
    rw [List.getElem?_eq_none (Nat.le_refl _)] at found
    exact absurd found (by simp)
  rw [split, Set.encard_union_eq apart, (Prod.mk_right_injective names.length).encard_image,
    encard_mem_and distinct]

/-- There is no override exactly if no two documents have a name in common. -/
theorem no_isOverride_iff (names : List (List CanonicalName)) :
    (∀ place, ¬IsOverride names place) ↔ names.Pairwise List.Disjoint := by
  rw [List.pairwise_iff_getElem]
  constructor
  · intro none i j isEarlier isLater before name inEarlier inLater
    refine none (j, name) ⟨names[j], List.getElem?_eq_getElem isLater, inLater, i, before, names[i],
      List.getElem?_eq_getElem isEarlier, inEarlier⟩
  · rintro apart ⟨j, name⟩ ⟨own, isLater, inLater, i, before, earlier, isEarlier, inEarlier⟩
    obtain ⟨inside, rfl⟩ := List.getElem?_eq_some_iff.1 isLater
    obtain ⟨inside', rfl⟩ := List.getElem?_eq_some_iff.1 isEarlier
    exact apart i j inside' inside before inEarlier inLater

/-- What counts of documents, tokens and overrides say of the names of the documents: there are as
many tokens as names in all documents, as many overrides as places of them, and each token is an
override or the first one of its name. -/
structure Tally (names : List (List CanonicalName)) (documents tokens overrides : Nat) : Prop where
  documents_eq : documents = names.length
  tokens_eq : tokens = (names.map List.length).sum
  overrides_eq : {place | IsOverride names place}.encard = overrides
  balance : tokens = overrides + names.flatten.eraseDups.length
  no_overrides_iff : overrides = 0 ↔ names.Pairwise List.Disjoint

namespace Merge

/-! ## Counting document by document -/

/-- A list of tokens with distinct names counts the names that are there before it. -/
theorem Fold.overrides_foldl_addToken (tokens : List (CanonicalName × Resolved))
    (distinct : (tokens.map Prod.fst).Nodup) (fold : Fold) :
    (tokens.foldl addToken fold).overrides =
      fold.overrides + (tokens.map Prod.fst).countP fold.folded.contains := by
  induction tokens generalizing fold with
  | nil => rfl
  | cons token rest ih =>
      obtain ⟨new, distinct⟩ := List.nodup_cons.1 distinct
      -- The inserted name does not come again, so that inserting it makes no difference.
      have same : (rest.map Prod.fst).countP (fold.addToken token).folded.contains =
          (rest.map Prod.fst).countP fold.folded.contains := by
        apply List.countP_congr
        intro name member
        have other : token.1 ≠ name := fun same => new (same ▸ member)
        rw [folded_addToken, OrderedMap.contains, OrderedMap.get?_insert, if_neg other,
          OrderedMap.contains]
      have first : (fold.addToken token).overrides =
          fold.overrides + if fold.folded.contains token.1 then 1 else 0 := by
        rw [addToken]
        split <;> rfl
      rw [List.foldl_cons, ih distinct, same, first, List.map_cons, List.countP_cons]
      omega

theorem Fold.tokens_foldl_addToken (tokens : List (CanonicalName × Resolved)) (fold : Fold) :
    (tokens.foldl addToken fold).tokens = fold.tokens + tokens.length := by
  induction tokens generalizing fold with
  | nil => rfl
  | cons token rest ih =>
      rw [List.foldl_cons, ih, tokens_addToken, List.length_cons]
      omega

variable (documents : List NormalTokens)

/-- One more document overrides the names that it has in common with the documents before it. -/
theorem overrides_merge_append (document : NormalTokens) :
    (merge (documents ++ [document])).stats.overrides =
      (merge documents).stats.overrides +
        document.keys.countP fun name => name ∈ givenNames documents := by
  have counted := Fold.overrides_foldl_addToken document.entries document.distinct
    (Fold.ofDocuments documents)
  have known : (fun name => decide (name ∈ givenNames documents)) =
      (Fold.ofDocuments documents).folded.contains := by
    funext name
    rw [Bool.eq_iff_iff, decide_eq_true_iff, mem_givenNames, OrderedMap.contains_iff,
      Fold.folded_ofDocuments, foldedTokens]
  rw [known]
  show (Fold.ofDocuments (documents ++ [document])).overrides = _
  rw [Fold.ofDocuments, List.foldl_append]
  exact counted

theorem tokens_merge_append (document : NormalTokens) :
    (merge (documents ++ [document])).stats.tokens =
      (merge documents).stats.tokens + document.keys.length := by
  show (Fold.ofDocuments (documents ++ [document])).tokens = _
  rw [Fold.ofDocuments, List.foldl_append, OrderedMap.keys, List.length_map]
  exact Fold.tokens_foldl_addToken document.entries (Fold.ofDocuments documents)

theorem tokens_stats_merge :
    (merge documents).stats.tokens = ((documents.map OrderedMap.keys).map List.length).sum := by
  induction documents using List.reverseRecOn with
  | nil => rfl
  | append_singleton documents document ih => rw [tokens_merge_append, ih]; simp

theorem overrides_stats_merge :
    {place | IsOverride (documents.map OrderedMap.keys) place}.encard =
      (merge documents).stats.overrides := by
  induction documents using List.reverseRecOn with
  | nil =>
      have none : {place | IsOverride ([] : List (List CanonicalName)) place} = ∅ :=
        Set.eq_empty_of_forall_notMem fun _ ⟨_, found, _⟩ => absurd found (by simp)
      rw [List.map_nil, none, Set.encard_empty]
      rfl
  | append_singleton documents document ih =>
      rw [List.map_append, List.map_singleton, encard_isOverride_append _ document.keys_nodup, ih,
        overrides_merge_append, givenNames, List.flatMap_def, Nat.cast_add]

/-- The counts of a merge are those of the names of its documents. -/
theorem tally_merge :
    Tally (documents.map OrderedMap.keys) (merge documents).stats.documents
      (merge documents).stats.tokens (merge documents).stats.overrides := by
  have places := overrides_stats_merge documents
  refine ⟨?_, tokens_stats_merge documents, places, ?_, ?_⟩
  · rw [List.length_map]
    rfl
  · rw [← List.flatMap_def]
    exact tokens_eq_overrides_add_names documents
  · rw [← no_isOverride_iff, ← Nat.cast_eq_zero (R := ℕ∞), ← places, Set.encard_eq_zero,
      Set.eq_empty_iff_forall_notMem]
    rfl

end Merge

end DesignTokens
