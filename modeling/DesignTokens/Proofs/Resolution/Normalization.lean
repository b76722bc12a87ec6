import DesignTokens.Proofs.Collection.Leaves
import DesignTokens.Resolution

/-!
# The normalized tokens of a document

What the leaves of a document make of a final name. A name is there if a leaf has it, in the order
of the leaves (`keys_normalTokens`). Its value comes from the leaves that share one collected name:
the collected name that appears last of those which become the final name, and of its leaves the
last one (`get?_normalTokens`).
-/

set_option autoImplicit false

namespace DesignTokens

open DesignTokens.Tree

/-- The normalized tokens of a document with the given leaves. -/
def normalTokens (table : RuleTable) (leaves : List Leaf) : NormalTokens :=
  table.normalizeAll (OrderedMap.ofList (leaves.map Leaf.token))

/-- Whether a collected name becomes a final name. -/
def becomes (name : CanonicalName) (collected : String) : Bool :=
  CanonicalName.derive? collected == some name

/-- The collected name that appears last of those which become a final name. -/
def newestSpelling? (name : CanonicalName) (leaves : List Leaf) : Option String :=
  (leaves.map Leaf.collectedName).eraseDups.findRev? (becomes name)

/-- The leaf that gives a final name its value: the last one under the newest spelling. -/
def decisiveLeaf? (name : CanonicalName) (leaves : List Leaf) : Option Leaf :=
  (newestSpelling? name leaves).bind fun spelling =>
    leaves.findRev? fun leaf => leaf.collectedName == spelling

/-! ## Names -/

theorem keys_normalizeAll (table : RuleTable) (tokens : RawTokens) :
    (table.normalizeAll tokens).keys =
      (tokens.keys.filterMap CanonicalName.derive?).eraseDups := by
  rw [RuleTable.normalizeAll, OrderedMap.keys_ofList, OrderedMap.keys, List.map_filterMap,
    List.filterMap_map]
  congr 2
  funext token
  simp [RuleTable.normalize?, Function.comp_def]

/-- The names of a document are those of its leaves, in the order of first appearance. -/
theorem keys_normalTokens (table : RuleTable) (leaves : List Leaf) :
    (normalTokens table leaves).keys = (leaves.filterMap Leaf.name?).eraseDups := by
  rw [normalTokens, keys_normalizeAll, keys_collected, eraseDups_filterMap_eraseDups,
    List.filterMap_map]
  have named : CanonicalName.derive? ∘ Leaf.collectedName = Leaf.name? := by
    funext leaf
    rw [Function.comp_apply, Leaf.name?]
  rw [named]

/-! ## Values -/

/-- A name takes the value of the last collected name that becomes it. -/
theorem get?_normalizeAll (table : RuleTable) (tokens : RawTokens) (name : CanonicalName) :
    (table.normalizeAll tokens).get? name =
      (tokens.entries.findRev? fun token => becomes name token.1).map fun token =>
        table.resolve name.text token.2 := by
  rw [RuleTable.normalizeAll, OrderedMap.get?_ofList]
  simp only [List.findRev?_eq_find?_reverse, ← List.filterMap_reverse, List.find?_filterMap]
  have same : (fun token : String × Json =>
      (table.normalize? token.1 token.2).any fun entry => entry.1 == name) =
        fun token => becomes name token.1 := by
    funext token
    rw [RuleTable.normalize?, Option.any_map, becomes]
    cases CanonicalName.derive? token.1 <;> simp
  rw [same]
  cases found : tokens.entries.reverse.find? fun token => becomes name token.1 with
  | none => rfl
  | some token =>
      have named : CanonicalName.derive? token.1 = some name := by
        simpa [becomes] using List.find?_some found
      simp [RuleTable.normalize?, named]

/-- The collected name that gives a final name its value is the newest spelling. -/
theorem newestSpelling?_eq (name : CanonicalName) (leaves : List Leaf) :
    newestSpelling? name leaves =
      ((OrderedMap.ofList (leaves.map Leaf.token)).entries.findRev? fun token =>
        becomes name token.1).map Prod.fst := by
  rw [newestSpelling?, ← keys_collected, OrderedMap.keys]
  simp only [List.findRev?_eq_find?_reverse, ← List.map_reverse, List.find?_map]
  congr 1

/-- The value of a name is that of its decisive leaf. -/
theorem get?_normalTokens (table : RuleTable) (leaves : List Leaf) (name : CanonicalName) :
    (normalTokens table leaves).get? name =
      (decisiveLeaf? name leaves).map fun leaf => table.resolve name.text leaf.value := by
  rw [normalTokens, get?_normalizeAll, decisiveLeaf?, newestSpelling?_eq]
  cases found : (OrderedMap.ofList (leaves.map Leaf.token)).entries.findRev?
      fun token => becomes name token.1 with
  | none => rfl
  | some token =>
      rw [List.findRev?_eq_find?_reverse] at found
      have member := List.mem_reverse.1 (List.mem_of_find?_eq_some found)
      have value := (OrderedMap.get?_eq_some_iff _ token.1 token.2).2 member
      rw [get?_collected, Option.map_eq_some_iff] at value
      obtain ⟨leaf, isLast, sameValue⟩ := value
      simp only [Option.map_some, Option.bind_some, isLast, sameValue]

/-! ## Decisive leaves and last leaves -/

/-- Whether a leaf has a final name, said of its collected name. -/
theorem hasName_eq_becomes (name : CanonicalName) (leaf : Leaf) :
    leaf.hasName name = becomes name leaf.collectedName := by
  rw [Leaf.hasName, Leaf.name?, becomes]

/-- The newest spelling is the collected name of a leaf. -/
theorem exists_leaf_of_newestSpelling? {name : CanonicalName} {leaves : List Leaf}
    {spelling : String} (h : newestSpelling? name leaves = some spelling) :
    ∃ leaf ∈ leaves, leaf.collectedName = spelling ∧ leaf.hasName name := by
  rw [newestSpelling?, List.findRev?_eq_find?_reverse] at h
  have named := List.find?_some h
  have member := List.mem_reverse.1 (List.mem_of_find?_eq_some h)
  obtain ⟨leaf, leafMember, rfl⟩ := List.mem_map.1 (List.mem_eraseDups.1 member)
  exact ⟨leaf, leafMember, rfl, by rw [hasName_eq_becomes, named]⟩

/-- A name that a leaf has, has a newest spelling. -/
theorem exists_newestSpelling? {name : CanonicalName} {leaves : List Leaf} {leaf : Leaf}
    (member : leaf ∈ leaves) (named : leaf.hasName name) :
    ∃ spelling, newestSpelling? name leaves = some spelling := by
  rw [← Option.isSome_iff_exists, newestSpelling?, List.findRev?_eq_find?_reverse,
    List.find?_isSome]
  refine ⟨leaf.collectedName, ?_, ?_⟩
  · rw [List.mem_reverse, List.mem_eraseDups]
    exact List.mem_map_of_mem member
  · rw [← hasName_eq_becomes, named]

/-- A name that a leaf has, has a decisive leaf. -/
theorem exists_decisiveLeaf? {name : CanonicalName} {leaves : List Leaf} {leaf : Leaf}
    (member : leaf ∈ leaves) (named : leaf.hasName name) :
    ∃ decisive, decisiveLeaf? name leaves = some decisive := by
  obtain ⟨spelling, newest⟩ := exists_newestSpelling? member named
  obtain ⟨spelt, speltMember, same, -⟩ := exists_leaf_of_newestSpelling? newest
  rw [← Option.isSome_iff_exists, decisiveLeaf?, newest, Option.bind_some,
    List.findRev?_eq_find?_reverse, List.find?_isSome]
  exact ⟨spelt, List.mem_reverse.2 speltMember, by rw [same, beq_self_eq_true]⟩

/-- A name that no leaf has, has no decisive leaf. -/
theorem decisiveLeaf?_eq_none {name : CanonicalName} {leaves : List Leaf}
    (unnamed : leaves.any (Leaf.hasName name) = false) : decisiveLeaf? name leaves = none := by
  cases newest : newestSpelling? name leaves with
  | none => rw [decisiveLeaf?, newest, Option.bind_none]
  | some spelling =>
      obtain ⟨leaf, member, -, named⟩ := exists_leaf_of_newestSpelling? newest
      exact absurd named (List.any_eq_false.1 unnamed leaf member)

/-- The last leaf of a name is decisive if it has the newest spelling. -/
theorem decisiveLeaf?_of_newest {name : CanonicalName} {leaves : List Leaf} {last : Leaf}
    (isLast : leaves.findRev? (Leaf.hasName name) = some last)
    (newest : newestSpelling? name leaves = some last.collectedName) :
    decisiveLeaf? name leaves = some last := by
  rw [decisiveLeaf?, newest, Option.bind_some, List.findRev?_eq_find?_reverse]
  rw [List.findRev?_eq_find?_reverse, List.find?_eq_some_iff_append] at isLast
  obtain ⟨named, later, earlier, split, unnamed⟩ := isLast
  rw [List.find?_eq_some_iff_append]
  refine ⟨beq_self_eq_true _, later, earlier, split, ?_⟩
  intro leaf member
  -- A leaf under the same collected name has the same final name.
  by_cases same : leaf.collectedName = last.collectedName
  · have absent := unnamed leaf member
    rw [hasName_eq_becomes, same, ← hasName_eq_becomes, named] at absent
    exact absurd absent (by decide)
  · simpa using same

/-- If all leaves of a name have one collected name, that is the newest spelling. -/
theorem newestSpelling?_of_alike {name : CanonicalName} {leaves : List Leaf} {leaf : Leaf}
    (member : leaf ∈ leaves) (named : leaf.hasName name)
    (alike : ∀ other ∈ leaves, other.hasName name →
      other.collectedName = leaf.collectedName) :
    newestSpelling? name leaves = some leaf.collectedName := by
  obtain ⟨spelling, newest⟩ := exists_newestSpelling? member named
  obtain ⟨spelt, speltMember, same, speltNamed⟩ := exists_leaf_of_newestSpelling? newest
  rw [newest, ← same, alike spelt speltMember speltNamed]

end DesignTokens
