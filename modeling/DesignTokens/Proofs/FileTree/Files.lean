import DesignTokens.Discovery
import DesignTokens.Proofs.FileTree.Kinds
import DesignTokens.Proofs.Path.Routes
import Mathlib.Data.List.Sort

/-!
# The files below an entry

In an entry whose directories have distinct and proper names (`WellNamed`), the files below are
exactly the places that hold a file (`mem_files`), strictly increasing (`sorted_files`). So the
files are known by their kinds alone, whatever the order in which directories list them.
-/

set_option autoImplicit false

namespace DesignTokens

namespace FileEntry

/-! ## Well-named entries -/

/-- The names in every directory are distinct, and names that an entry can have. -/
inductive WellNamed : FileEntry → Prop
  | file (content : ByteArray) : WellNamed (.file content)
  | link (target : Path) : WellNamed (.link target)
  | directory {entries : List (FileName × FileEntry)}
      (distinct : (entries.map Prod.fst).Nodup)
      (names : ∀ name ∈ entries.map Prod.fst, IsName name)
      (inner : ∀ part ∈ entries, WellNamed part.2) : WellNamed (.directory entries)

theorem child?_eq_some_iff {entries : List (FileName × FileEntry)}
    (distinct : (entries.map Prod.fst).Nodup) {name : FileName} {inner : FileEntry} :
    (directory entries).child? name = some inner ↔ (name, inner) ∈ entries :=
  OrderedMap.get?_eq_some_iff ⟨entries, distinct⟩ name inner

theorem WellNamed.of_child? {entry inner : FileEntry} {name : FileName} (h : entry.WellNamed)
    (found : entry.child? name = some inner) : IsName name ∧ inner.WellNamed := by
  cases h with
  | file content => exact absurd found (by simp [child?, entries, OrderedMap.lookup])
  | link target => exact absurd found (by simp [child?, entries, OrderedMap.lookup])
  | directory distinct names inner =>
      have member := (child?_eq_some_iff distinct).1 found
      exact ⟨names _ (List.mem_map_of_mem member), inner _ member⟩

/-- Whatever stands below a well-named entry is well named, and so is its place. -/
theorem WellNamed.of_at? {entry inner : FileEntry} {place : Place} (h : entry.WellNamed)
    (found : entry.at? place = some inner) : (∀ name ∈ place, IsName name) ∧ inner.WellNamed := by
  induction place generalizing entry with
  | nil =>
      obtain rfl := Option.some.inj found
      exact ⟨by simp, h⟩
  | cons name rest ih =>
      rw [at?] at found
      obtain ⟨child, isChild, below⟩ := Option.bind_eq_some_iff.1 found
      obtain ⟨isName, wellNamed⟩ := h.of_child? isChild
      obtain ⟨names, ends⟩ := ih wellNamed below
      exact ⟨by simpa using ⟨isName, names⟩, ends⟩

/-- Placing a well-named entry under a proper name keeps a directory well named. -/
theorem WellNamed.place {entries : List (FileName × FileEntry)}
    (h : (FileEntry.directory entries).WellNamed)
    {name : FileName} (isName : IsName name) {content : FileEntry} (wellNamed : content.WellNamed) :
    (FileEntry.directory (OrderedMap.place name content entries)).WellNamed := by
  cases h with
  | directory distinct names inner =>
      refine .directory (OrderedMap.nodup_place name content entries distinct) ?_ ?_
      · intro other member
        rw [OrderedMap.keys_place] at member
        split at member
        · exact names other member
        · rcases List.mem_append.1 member with old | new
          · exact names other old
          · rwa [List.mem_singleton.1 new]
      · intro part member
        rcases OrderedMap.mem_place member with rfl | old
        · exact wellNamed
        · exact inner part old

/-- Filling a proper name of a directory keeps the whole entry well named. -/
theorem WellNamed.put {entry content : FileEntry} {directoryPlace : Place} {name : FileName}
    (h : entry.WellNamed) (isName : IsName name) (wellNamed : content.WellNamed) :
    (put content (directoryPlace ++ [name]) entry).WellNamed := by
  induction directoryPlace generalizing entry with
  | nil =>
      cases h with
      | file content => exact .file content
      | link target => exact .link target
      | directory distinct names inner =>
          exact (WellNamed.directory distinct names inner).place isName wellNamed
  | cons outer rest ih =>
      obtain ⟨next, others, split⟩ := exists_cons_of_append_singleton rest name
      rw [split] at ih
      rw [List.cons_append, split]
      cases h with
      | file content => exact .file content
      | link target => exact .link target
      | @directory entries distinct names inner =>
          have whole := WellNamed.directory distinct names inner
          rw [put_cons_cons]
          cases found : OrderedMap.lookup outer entries with
          | none => exact whole
          | some child =>
              obtain ⟨isOuter, within⟩ := whole.of_child? (by rw [child?_directory, found])
              exact whole.place isOuter (ih within)

/-! ## The places of leaves -/

theorem leavesOfEach_eq_map (kind : FileEntry → Bool) (entries : List (FileName × FileEntry)) :
    leavesOfEach kind entries = entries.map fun part => (part.1, leaves kind part.2) := by
  induction entries with
  | nil => rfl
  | cons part rest ih => rw [leavesOfEach, ih, List.map_cons]

theorem mem_sortByName {α : Type} {parts : List (FileName × α)} {part : FileName × α} :
    part ∈ sortByName parts ↔ part ∈ parts := List.mem_mergeSort

theorem sorted_sortByName {α : Type} (parts : List (FileName × α)) :
    (sortByName parts).Pairwise fun first second => first.1 ≤ second.1 := by
  have ordered := @List.pairwise_mergeSort (FileName × α)
    (fun first second => decide (first.1 ≤ second.1))
    (fun a b c ab bc => by
      rw [decide_eq_true_eq] at *
      exact List.le_trans ab bc)
    (fun a b => by
      rw [Bool.or_eq_true, decide_eq_true_eq, decide_eq_true_eq]
      exact List.le_total a.1 b.1) parts
  simpa only [sortByName, decide_eq_true_eq] using ordered

/-- Sorted parts with distinct names have strictly increasing names. -/
theorem pairwise_lt_of_sorted {α : Type} {parts : List (FileName × α)}
    (distinct : (parts.map Prod.fst).Nodup)
    (sorted : parts.Pairwise fun first second => first.1 ≤ second.1) :
    parts.Pairwise fun first second => first.1 < second.1 := by
  refine (sorted.and (List.pairwise_map.1 distinct)).imp ?_
  rintro first second ⟨ordered, differ⟩
  exact List.not_le.1 fun back => differ (List.le_antisymm ordered back)

/-- Sorted by distinct names, parts have strictly increasing names. -/
theorem pairwise_sortByName {α : Type} {parts : List (FileName × α)}
    (distinct : (parts.map Prod.fst).Nodup) :
    (sortByName parts).Pairwise fun first second => first.1 < second.1 :=
  pairwise_lt_of_sorted
    (((List.mergeSort_perm parts _).map Prod.fst).nodup_iff.2 distinct) (sorted_sortByName parts)

/-- The leaves of a kind are the places where one stands that is no directory. -/
theorem mem_leaves {kind : FileEntry → Bool} {entry : FileEntry} (h : entry.WellNamed)
    (place : Place) :
    place ∈ entry.leaves kind ↔
      ∃ leaf, entry.at? place = some leaf ∧ leaf.isDirectory = false ∧ kind leaf = true := by
  -- An entry without entries has a leaf at its own place or none.
  have bare : ∀ {leaf : FileEntry}, leaf.isDirectory = false → leaf.entries = [] →
      leaf.leaves kind = (if kind leaf then [[]] else []) → ∀ place : Place,
        place ∈ leaf.leaves kind ↔
          ∃ found, leaf.at? place = some found ∧ found.isDirectory = false ∧ kind found = true := by
    intro leaf noDirectory nothing leaves place
    rw [leaves]
    cases place with
    | nil =>
        have only : ∀ found, leaf.at? [] = some found ↔ found = leaf := fun found =>
          ⟨fun h => (Option.some.inj h).symm, fun h => congrArg some h.symm⟩
        by_cases isKind : kind leaf = true <;> simp [only, noDirectory, isKind]
    | cons name rest =>
        have none_below : leaf.at? (name :: rest) = none := by
          rw [at?, child?, nothing]
          rfl
        by_cases isKind : kind leaf = true <;> simp [none_below, isKind]
  induction h generalizing place with
  | file content => exact bare rfl rfl (by rw [leaves]) place
  | link target => exact bare rfl rfl (by rw [leaves]) place
  | @directory entries distinct names inner ih =>
      rw [leaves, leavesOfEach_eq_map, List.mem_flatMap]
      simp only [mem_sortByName, List.mem_map, placesUnder]
      constructor
      · rintro ⟨_, ⟨part, member, rfl⟩, below, leaf, rfl⟩
        rw [at?, (child?_eq_some_iff distinct).2 member]
        exact (ih part member below).1 leaf
      · rintro ⟨leaf, found, noDirectory, isKind⟩
        cases place with
        | nil =>
            obtain rfl := Option.some.inj found
            exact absurd noDirectory (by simp [isDirectory])
        | cons name rest =>
            rw [at?] at found
            obtain ⟨child, isChild, below⟩ := Option.bind_eq_some_iff.1 found
            have member := (child?_eq_some_iff distinct).1 isChild
            exact ⟨_, ⟨(name, child), member, rfl⟩, rest,
              (ih _ member rest).2 ⟨leaf, below, noDirectory, isKind⟩, rfl⟩

/-- Under increasing names, increasing places are increasing. -/
theorem pairwise_placesUnder {parts : List (FileName × List Place)}
    (names : parts.Pairwise fun first second => first.1 < second.1)
    (inner : ∀ part ∈ parts, part.2.Pairwise (· < ·)) :
    (parts.flatMap placesUnder).Pairwise (· < ·) := by
  refine List.pairwise_flatMap.2 ⟨fun part member => ?_, names.imp ?_⟩
  · refine List.pairwise_map.2 ((inner part member).imp fun less => ?_)
    exact List.cons_lt_cons_iff.2 (Or.inr ⟨rfl, less⟩)
  · intro first second less x isFirst y isSecond
    obtain ⟨_, -, rfl⟩ := List.mem_map.1 isFirst
    obtain ⟨_, -, rfl⟩ := List.mem_map.1 isSecond
    exact List.cons_lt_cons_iff.2 (Or.inl less)

/-- The places of leaves are strictly increasing, name by name. -/
theorem sorted_leaves {kind : FileEntry → Bool} {entry : FileEntry} (h : entry.WellNamed) :
    (entry.leaves kind).Pairwise (· < ·) := by
  have bare : ∀ {isKind : Bool}, (if isKind then [[]] else [] : List Place).Pairwise (· < ·) := by
    intro isKind
    cases isKind <;> simp
  induction h with
  | file content => rw [leaves]; exact bare
  | link target => rw [leaves]; exact bare
  | @directory entries distinct names inner ih =>
      rw [leaves, leavesOfEach_eq_map]
      have keys : ((entries.map fun part => (part.1, leaves kind part.2)).map Prod.fst).Nodup := by
        rwa [List.map_map]
      refine pairwise_placesUnder (pairwise_sortByName keys) ?_
      intro part member
      obtain ⟨original, isPart, rfl⟩ := List.mem_map.1 (mem_sortByName.1 member)
      exact ih original isPart

/-! ## The places of files -/

/-- **The files below an entry are the places that hold a file.** -/
theorem mem_files {entry : FileEntry} (h : entry.WellNamed) (place : Place) :
    place ∈ entry.files ↔ ∃ content, entry.kindAt? place = some (.file content) := by
  rw [files, mem_leaves h]
  constructor
  · rintro ⟨leaf, found, -, isFile⟩
    cases leaf with
    | file content => exact ⟨content, by rw [kindAt?, found]; rfl⟩
    | link target => exact absurd isFile (by simp [FileEntry.isFile])
    | directory entries => exact absurd isFile (by simp [FileEntry.isFile])
  · rintro ⟨content, found⟩
    obtain ⟨leaf, isLeaf, kind⟩ := Option.map_eq_some_iff.1 found
    cases leaf with
    | file other => exact ⟨_, isLeaf, rfl, rfl⟩
    | link target => exact absurd kind (by simp [FileEntry.kind])
    | directory entries => exact absurd kind (by simp [FileEntry.kind])

/-- **The files below an entry stand in strictly increasing order**, name by name. -/
theorem sorted_files {entry : FileEntry} (h : entry.WellNamed) :
    entry.files.Pairwise (· < ·) := sorted_leaves h

/-- Strictly increasing lists of places with the same members are the same. -/
theorem eq_of_sorted {first second : List Place} (h : first.Pairwise (· < ·))
    (h' : second.Pairwise (· < ·)) (same : ∀ place, place ∈ first ↔ place ∈ second) :
    first = second := by
  have distinct : ∀ {list : List Place}, list.Pairwise (· < ·) → list.Nodup := by
    intro list sorted
    refine sorted.imp ?_
    rintro place _ less rfl
    exact List.lt_irrefl place less
  refine List.Perm.eq_of_pairwise ?_ h h'
    ((List.perm_ext_iff_of_nodup (distinct h) (distinct h')).2 same)
  intro place other _ _ less more
  exact absurd more (List.lt_asymm less)

end FileEntry

end DesignTokens
