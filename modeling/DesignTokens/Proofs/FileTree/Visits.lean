import DesignTokens.Proofs.FileTree.Files

/-!
# Walks below an entry and listings of it

A walk below an entry visits everything there, depth first and in the order of the octets of the names
(`Visits`). That settles what it visits and in which order: the files among the visited places are
those that are found here (`files_of_visits`). How the directories list their entries makes no
difference: another listing of an entry (`Relists`) has the same kinds at the same places
(`Relists.kindAt?_eq`).
-/

set_option autoImplicit false

namespace DesignTokens.FileEntry

/-! ## Walks -/

/-- What a walk below an entry visits: the entry itself, and if it is a directory, then its entries one
after another, each with all that is below it, sorted by the octets of their names. -/
inductive Visits : FileEntry → List Place → Prop
  | file (content : ByteArray) : Visits (.file content) [[]]
  | link (target : Path) : Visits (.link target) [[]]
  | directory {entries order : List (FileName × FileEntry)} {below : FileName → List Place}
      (every : order.Perm entries)
      (sorted : order.Pairwise fun first second => first.1 ≤ second.1)
      (inner : ∀ part ∈ entries, Visits part.2 (below part.1)) :
      Visits (.directory entries)
        ([] :: order.flatMap fun part => placesUnder (part.1, below part.1))

/-- Every entry can be walked. -/
theorem WellNamed.exists_visits {entry : FileEntry} (h : entry.WellNamed) :
    ∃ visited, entry.Visits visited := by
  induction h with
  | file content => exact ⟨_, .file content⟩
  | link target => exact ⟨_, .link target⟩
  | @directory entries distinct names inner ih =>
      have named : ∀ name, ∃ visited, ∀ child, (name, child) ∈ entries → child.Visits visited := by
        intro name
        cases found : (FileEntry.directory entries).child? name with
        | none =>
            refine ⟨[], fun child member => ?_⟩
            rw [(child?_eq_some_iff distinct).2 member] at found
            exact absurd found (by simp)
        | some child =>
            obtain ⟨visited, visits⟩ := ih _ ((child?_eq_some_iff distinct).1 found)
            refine ⟨visited, fun other member => ?_⟩
            rw [(child?_eq_some_iff distinct).2 member] at found
            rwa [Option.some.inj found]
      choose below visits using named
      exact ⟨_, .directory (List.mergeSort_perm entries _) (sorted_sortByName entries)
        fun part member => visits part.1 part.2 member⟩

/-- A walk visits the places where something stands. -/
theorem Visits.mem_iff {entry : FileEntry} {visited : List Place} (h : entry.Visits visited)
    (wellNamed : entry.WellNamed) (place : Place) :
    place ∈ visited ↔ (entry.kindAt? place).isSome = true := by
  -- An entry without entries is visited at its own place.
  have bare : ∀ {leaf : FileEntry}, leaf.entries = [] → ∀ place : Place,
      place ∈ [([] : Place)] ↔ (leaf.kindAt? place).isSome = true := by
    intro leaf nothing place
    cases place with
    | nil => simp [kindAt?_nil]
    | cons name rest => simp [kindAt?_of_bare nothing]
  induction h generalizing place with
  | file content => exact bare rfl place
  | link target => exact bare rfl place
  | @directory entries order below every sorted inner ih =>
      cases wellNamed with
      | directory distinct names wellNamed =>
          cases place with
          | nil => simp [kindAt?_nil]
          | cons name rest =>
              rw [kindAt?_cons]
              simp only [List.mem_cons, List.mem_flatMap, every.mem_iff, placesUnder, List.mem_map,
                reduceCtorEq, false_or]
              constructor
              · rintro ⟨⟨part, child⟩, member, _, visited, cut⟩
                obtain ⟨rfl, rfl⟩ := List.cons.inj cut
                rw [(child?_eq_some_iff distinct).2 member]
                exact (ih _ member (wellNamed _ member) _).1 visited
              · intro stands
                cases found : (FileEntry.directory entries).child? name with
                | none =>
                    rw [found] at stands
                    exact absurd stands (by simp)
                | some child =>
                    have member := (child?_eq_some_iff distinct).1 found
                    rw [found] at stands
                    exact ⟨(name, child), member, rest,
                      (ih _ member (wellNamed _ member) _).2 stands, rfl⟩

/-- A walk visits places in strictly increasing order. -/
theorem Visits.increasing {entry : FileEntry} {visited : List Place} (h : entry.Visits visited)
    (wellNamed : entry.WellNamed) : visited.Pairwise (· < ·) := by
  induction h with
  | file content => exact List.pairwise_singleton _ _
  | link target => exact List.pairwise_singleton _ _
  | @directory entries order below every sorted inner ih =>
      cases wellNamed with
      | directory distinct names wellNamed =>
          have parts := pairwise_lt_of_sorted ((every.map Prod.fst).nodup_iff.2 distinct) sorted
          rw [← @List.flatMap_map _ _ _ (fun part => (part.1, below part.1)) placesUnder order]
          refine List.pairwise_cons.2 ⟨?_, pairwise_placesUnder (List.pairwise_map.2 parts) ?_⟩
          · intro place member
            obtain ⟨part, -, under⟩ := List.mem_flatMap.1 member
            obtain ⟨rest, -, rfl⟩ := List.mem_map.1 under
            exact List.nil_lt_cons _ _
          · intro part member
            obtain ⟨original, isPart, rfl⟩ := List.mem_map.1 member
            have isPart := every.mem_iff.1 isPart
            exact ih original isPart (wellNamed original isPart)

/-- **Whatever walks below an entry in this way comes upon the files in their order.** -/
theorem files_of_visits {entry : FileEntry} {visited : List Place} (h : entry.Visits visited)
    (wellNamed : entry.WellNamed) :
    visited.filter (fun place => (entry.at? place).any isFile) = entry.files := by
  refine eq_of_sorted ((h.increasing wellNamed).filter _) (sorted_files wellNamed) fun place => ?_
  rw [List.mem_filter, h.mem_iff wellNamed, mem_files wellNamed, kindAt?]
  cases entry.at? place with
  | none => simp
  | some leaf => cases leaf <;> simp [isFile, kind]

/-! ## Listings -/

/-- The second entry is the first one in another listing: its directories hold the same entries under
the same names, whatever the order. -/
inductive Relists : FileEntry → FileEntry → Prop
  | file (content : ByteArray) : Relists (.file content) (.file content)
  | link (target : Path) : Relists (.link target) (.link target)
  | directory {first second : List (FileName × FileEntry)}
      (names : (first.map Prod.fst).Perm (second.map Prod.fst))
      (inner : ∀ name entry other, (name, entry) ∈ first → (name, other) ∈ second →
        Relists entry other) : Relists (.directory first) (.directory second)

theorem Relists.wellNamed {first second : FileEntry} (h : first.Relists second)
    (wellNamed : first.WellNamed) : second.WellNamed := by
  induction h with
  | file content => exact .file content
  | link target => exact .link target
  | @directory first second names inner ih =>
      cases wellNamed with
      | directory distinct isName wellNamed =>
          refine .directory (names.nodup_iff.1 distinct)
            (fun name member => isName name (names.mem_iff.2 member)) fun part member => ?_
          obtain ⟨⟨name, entry⟩, isPart, same⟩ :=
            List.mem_map.1 (names.mem_iff.2 (List.mem_map_of_mem member))
          obtain rfl : name = part.1 := same
          exact ih _ entry part.2 isPart member (wellNamed _ isPart)

/-- **Another listing has the same kinds at the same places.** -/
theorem Relists.kindAt?_eq {first second : FileEntry} (h : first.Relists second)
    (wellNamed : first.WellNamed) (place : Place) :
    second.kindAt? place = first.kindAt? place := by
  induction h generalizing place with
  | file content => rfl
  | link target => rfl
  | @directory first second names inner ih =>
      have wellNamed' := (Relists.directory names inner).wellNamed wellNamed
      cases wellNamed with
      | directory distinct isName wellNamed =>
          cases wellNamed' with
          | directory distinct' =>
              cases place with
              | nil => rfl
              | cons name rest =>
                  rw [kindAt?_cons, kindAt?_cons]
                  cases found : (FileEntry.directory first).child? name with
                  | none =>
                      have absent : (FileEntry.directory second).child? name = none := by
                        rw [Option.eq_none_iff_forall_ne_some]
                        intro other isOther
                        have member' := (child?_eq_some_iff distinct').1 isOther
                        obtain ⟨⟨_, entry⟩, member, rfl⟩ :=
                          List.mem_map.1 (names.mem_iff.2 (List.mem_map_of_mem member'))
                        rw [(child?_eq_some_iff distinct).2 member] at found
                        exact absurd found (by simp)
                      rw [absent]
                  | some entry =>
                      have member := (child?_eq_some_iff distinct).1 found
                      obtain ⟨⟨_, other⟩, member', rfl⟩ :=
                        List.mem_map.1 (names.mem_iff.1 (List.mem_map_of_mem member))
                      rw [(child?_eq_some_iff distinct').2 member']
                      exact ih _ entry other member member' (wellNamed _ member) rest

end DesignTokens.FileEntry
