import DesignTokens.Proofs.Merge.Override

/-!
# The originals of a corrected name

A corrected name that no document gives may be the correction of several names that documents give:
`gird-grid-a` and `grid-gird-a` both become `grid-grid-a`. It is added once, right behind the first
of its originals and with the value of the last of them
(`correction_between_first_and_last_original`). So it follows its original with the same value
where there is only one, and cannot do so for all of several (`shared_correction_fits_no_original`).
-/

set_option autoImplicit false

namespace DesignTokens

namespace Merge

/-- The names that documents give and that have a correction, in the order in which they were first
given. -/
def originals (documents : List NormalTokens) (corrected : CanonicalName) : List CanonicalName :=
  (givenNames documents).eraseDups.filter fun name => name.correction? == some corrected

/-- The resolved value that a final name takes over: its own if documents give the name, otherwise
that of the last of its originals. -/
def source? (documents : List NormalTokens) (name : CanonicalName) : Option Resolved :=
  ((foldedTokens documents).get? name).or
    ((originals documents name).getLast?.bind (foldedTokens documents).get?)

/-! ## The place of an added name -/

/-- An added name stands right behind the first folded name that it corrects. -/
theorem exists_keys_around {folded : NormalTokens} {first corrected : CanonicalName}
    {before after : List CanonicalName} (split : folded.keys = before ++ first :: after)
    (isFirst : ∀ name ∈ before, name.correction? ≠ some corrected)
    (correction : first.correction? = some corrected) (new : corrected ∉ folded.keys) :
    ∃ front back, (withAddedNames folded).keys = front ++ first :: corrected :: back := by
  have known : first ∈ folded.keys := by simp [split]
  have added : addedName? folded first = some corrected :=
    (addedName?_eq_some_iff folded first corrected).2 ⟨correction, new⟩
  have unseen : first ∉ before.flatMap fun name => name :: (addedName? folded name).toList := by
    intro seen
    obtain ⟨name, member, same | isAdded⟩ := by simpa using seen
    · have distinct := folded.keys_nodup
      rw [split, List.nodup_append] at distinct
      exact distinct.2.2 name member first List.mem_cons_self same.symm
    · exact ((addedName?_eq_some_iff folded name first).1 isAdded).2 known
  have unseen' : corrected ∉ before.flatMap fun name =>
      name :: (addedName? folded name).toList := by
    intro seen
    obtain ⟨name, member, same | isAdded⟩ := by simpa using seen
    · exact new (by simp [split, same, member])
    · exact isFirst name member ((addedName?_eq_some_iff folded name corrected).1 isAdded).1
  have differ : first ≠ corrected := fun same => new (same ▸ known)
  obtain ⟨later, keys⟩ := eraseDups_append_new_pair unseen unseen' differ
    (after.flatMap fun name => name :: (addedName? folded name).toList)
  rw [keys_withAddedNames, split, List.flatMap_append, List.flatMap_cons, added]
  exact ⟨_, later, keys⟩

/-! ## The value of a final name -/

variable (documents : List NormalTokens)

theorem mem_originals (name corrected : CanonicalName) :
    name ∈ originals documents corrected ↔
      name ∈ givenNames documents ∧ name.correction? = some corrected := by
  simp [originals, List.mem_eraseDups]

/-- A final name has the value that it takes over. -/
theorem get?_merge (name : CanonicalName) :
    (merge documents).tokens.get? name = (source? documents name).map Resolved.value := by
  rw [tokens_merge, source?]
  cases found : (foldedTokens documents).get? name with
  | some resolved => exact get?_withAddedNames _ found
  | none =>
      have new : name ∉ (foldedTokens documents).keys := (OrderedMap.get?_eq_none_iff _ name).1 found
      rw [get?_withAddedNames_of_new _ new, Option.none_or, originals, List.getLast?_filter,
        List.findRev?_eq_find?_reverse, keys_foldedTokens]

end Merge

open Merge

/-- **A corrected name stands behind its first original and has the value of its last.** So it
follows its original with the same value if there is only one. -/
theorem correction_between_first_and_last_original (documents : List NormalTokens)
    {name corrected : CanonicalName} (given : name ∈ givenNames documents)
    (correction : name.correction? = some corrected) (new : corrected ∉ givenNames documents) :
    ∃ first last front back value,
      (originals documents corrected).head? = some first ∧
      (originals documents corrected).getLast? = some last ∧
      (merge documents).tokens.keys = front ++ first :: corrected :: back ∧
      (merge documents).tokens.get? corrected = some value ∧
      (merge documents).tokens.get? last = some value ∧
      ((∀ other ∈ givenNames documents, other.correction? = some corrected → other = name) →
        first = name ∧ last = name) := by
  have some_original : originals documents corrected ≠ [] :=
    List.ne_nil_of_mem ((mem_originals documents name corrected).2 ⟨given, correction⟩)
  obtain ⟨first, isFirst⟩ := Option.ne_none_iff_exists'.1
    (mt List.head?_eq_none_iff.1 some_original)
  obtain ⟨last, isLast⟩ := Option.ne_none_iff_exists'.1
    (mt List.getLast?_eq_none_iff.1 some_original)
  have firstOriginal := (mem_originals documents first corrected).1 (List.mem_of_head? isFirst)
  have lastOriginal := (mem_originals documents last corrected).1 (List.mem_of_getLast? isLast)
  obtain ⟨front, back, keys⟩ : ∃ front back,
      (merge documents).tokens.keys = front ++ first :: corrected :: back := by
    have found := isFirst
    rw [originals, List.head?_filter, List.find?_eq_some_iff_append] at found
    obtain ⟨-, before, after, split, none_before⟩ := found
    rw [mem_givenNames] at new
    rw [tokens_merge]
    exact exists_keys_around ((keys_foldedTokens documents).trans split)
      (by simpa using none_before) firstOriginal.2 new
  obtain ⟨-, -, -, resolved, -, -, -, folded⟩ := exists_last_document documents lastOriginal.1
  have unknown : (foldedTokens documents).get? corrected = none := by
    rw [mem_givenNames, ← OrderedMap.contains_iff, OrderedMap.contains] at new
    exact Option.not_isSome_iff_eq_none.1 new
  refine ⟨first, last, front, back, resolved.value, isFirst, isLast, keys, ?_, ?_, ?_⟩
  · rw [get?_merge, source?, unknown, isLast, Option.none_or, Option.bind_some, folded]
    rfl
  · rw [get?_merge, source?, folded]
    rfl
  · intro only
    exact ⟨only first firstOriginal.1 firstOriginal.2, only last lastOriginal.1 lastOriginal.2⟩

/-! ## Two originals -/

/-- A name whose second word is right. -/
def girdGrid : CanonicalName := ⟨"gird-grid-a", by decide⟩

/-- A name whose first word is right. -/
def gridGird : CanonicalName := ⟨"grid-gird-a", by decide⟩

/-- The correction of both. -/
def gridGrid : CanonicalName := ⟨"grid-grid-a", by decide⟩

/-- One document that gives both names, with different values. -/
def twoOriginals : List NormalTokens :=
  [.ofList [(girdGrid, ⟨.string "1", .literal⟩), (gridGird, ⟨.string "2", .literal⟩)]]

/-- The place and the value of a correction that two names share. -/
theorem correction_of_two_originals :
    girdGrid ∈ givenNames twoOriginals ∧ girdGrid.correction? = some gridGrid ∧
      gridGrid ∉ givenNames twoOriginals ∧
      ∃ first last front back value,
        (originals twoOriginals gridGrid).head? = some first ∧
        (originals twoOriginals gridGrid).getLast? = some last ∧
        (merge twoOriginals).tokens.keys = front ++ first :: gridGrid :: back ∧
        (merge twoOriginals).tokens.get? gridGrid = some value ∧
        (merge twoOriginals).tokens.get? last = some value := by
  have given : girdGrid ∈ givenNames twoOriginals := by decide
  have correction : girdGrid.correction? = some gridGrid := by decide
  have new : gridGrid ∉ givenNames twoOriginals := by decide
  obtain ⟨first, last, front, back, value, isFirst, isLast, keys, added, kept, -⟩ :=
    correction_between_first_and_last_original twoOriginals given correction new
  exact ⟨given, correction, new, first, last, front, back, value, isFirst, isLast, keys, added,
    kept⟩

/-- **One entry cannot follow two originals**, nor have the values of both: the correction has not the
value of the first of them and does not stand behind the second. -/
theorem shared_correction_fits_no_original :
    (girdGrid ∈ givenNames twoOriginals ∧ girdGrid.correction? = some gridGrid ∧
      gridGrid ∉ givenNames twoOriginals ∧
      (merge twoOriginals).tokens.get? gridGrid ≠ (merge twoOriginals).tokens.get? girdGrid) ∧
    gridGird ∈ givenNames twoOriginals ∧ gridGird.correction? = some gridGrid ∧
      ¬ ∃ front back,
        (merge twoOriginals).tokens.keys = front ++ gridGird :: gridGrid :: back := by
  refine ⟨⟨by decide, by decide, by decide, ?_⟩, by decide, by decide, ?_⟩
  · have two : (merge twoOriginals).tokens.get? gridGrid = some (.string "2") := rfl
    have one : (merge twoOriginals).tokens.get? girdGrid = some (.string "1") := rfl
    rw [one, two]
    simp
  · rintro ⟨front, back, keys⟩
    have last : (merge twoOriginals).tokens.keys.getLast? = some gridGird := rfl
    have distinct := (merge twoOriginals).tokens.keys_nodup
    -- What stands last would stand before something.
    rw [keys, List.getLast?_append_of_ne_nil _ (by simp), List.getLast?_cons_cons] at last
    rw [keys, List.nodup_append, List.nodup_cons] at distinct
    exact distinct.2.1.1 (List.mem_of_getLast? last)

end DesignTokens
