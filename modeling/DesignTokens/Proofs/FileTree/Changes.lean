import DesignTokens.Proofs.FileTree.Files
import DesignTokens.Proofs.FileTree.Lookups

/-!
# Making directories

A directory is made where its path ends in a name that is not taken (`makeDirectory_eq_ok`). So
making the directories of a path lets a well-formed tree grow by directories on the way of the path and
keeps it well formed, however far it comes (`createDirectories_growsAlong`), and does nothing if the
path leads to a directory (`createDirectories_of_isDirectory`).
-/

set_option autoImplicit false

namespace DesignTokens.FileTree

/-! ## Well-formed trees -/

/-- The names in a tree are distinct and proper, and the working directory is there. -/
structure WellFormed (tree : FileTree) : Prop where
  names : tree.root.WellNamed
  working : tree.kindAt? tree.working = some .directory

/-- Every walk starts at a directory. -/
theorem WellFormed.start {tree : FileTree} (h : tree.WellFormed) (route : Route) :
    tree.kindAt? (tree.start route) = some .directory := by
  rw [FileTree.start]
  split
  · exact kindAt?_root h.working
  · exact h.working

/-- A path ends in a name of a directory. -/
theorem EndsIn.inside {tree : FileTree} {path : Path} {directory : Place} {name : FileName}
    (h : tree.EndsIn path directory name) (wellFormed : tree.WellFormed) :
    tree.kindAt? directory = some .directory := h.leads.directory (wellFormed.start _)

theorem EndsIn.isName {tree : FileTree} {path : Path} {directory : Place} {name : FileName}
    (h : tree.EndsIn path directory name) : IsName name :=
  Path.isName_of_mem_route (List.mem_of_getLast? h.last) h.short

/-- Filling the name that a path ends in keeps a tree well formed, if the place holds no directory
and what is put there holds nothing. -/
theorem WellFormed.put {tree : FileTree} {path : Path} {directory : Place} {name : FileName}
    {content : FileEntry} (h : tree.WellFormed) (ends : tree.EndsIn path directory name)
    (replaceable : tree.kindAt? (directory ++ [name]) ≠ some .directory)
    (bare : content.entries = []) (wellNamed : content.WellNamed) :
    (tree.put (directory ++ [name]) content).WellFormed := by
  refine ⟨h.names.put ends.isName wellNamed, ?_⟩
  have other : tree.working ≠ directory ++ [name] := fun same => replaceable (same ▸ h.working)
  rw [kindAt?, FileTree.put, FileEntry.kindAt?_put (ends.inside h) replaceable bare, if_neg other]
  exact h.working

/-! ## One directory -/

theorem makeDirectory_eq_ok {tree made : FileTree} {path : Path}
    (h : tree.makeDirectory path = .ok made) :
    ∃ directory name, tree.EndsIn path directory name ∧
      tree.kindAt? (directory ++ [name]) = none ∧
      made = tree.put (directory ++ [name]) (.directory []) := by
  obtain ⟨ending, looked, h⟩ := bind_eq_ok_iff.1 h
  cases ending with
  | turn => exact absurd h nofun
  | name directory name slashed =>
      dsimp only at h
      by_cases taken : (tree.at? (directory ++ [name])).isSome = true
      · rw [if_pos taken] at h
        exact absurd h nofun
      · rw [if_neg taken] at h
        refine ⟨directory, name, (lookupEnding_eq_name_iff.1 looked).1, ?_, (Except.ok.inj h).symm⟩
        rw [kindAt?_eq, Option.not_isSome_iff_eq_none.1 taken]
        rfl

/-- The second tree has further directories at most, and a path of a list leads to each of them. -/
structure GrowsAlong (paths : List Path) (before after : FileTree) : Prop
    extends before.GrowsTo after where
  along : ∀ place, before.kindAt? place = none → after.kindAt? place ≠ none →
    ∃ path ∈ paths, after.Finds .read path place

theorem GrowsAlong.refl (paths : List Path) (tree : FileTree) : GrowsAlong paths tree tree :=
  ⟨.refl tree, fun _ absent there => absurd absent there⟩

theorem GrowsAlong.mono {paths more : List Path} {before after : FileTree}
    (h : GrowsAlong paths before after) (sub : paths ⊆ more) : GrowsAlong more before after := by
  refine ⟨h.toGrowsTo, fun place absent there => ?_⟩
  obtain ⟨path, member, finds⟩ := h.along place absent there
  exact ⟨path, sub member, finds⟩

theorem GrowsAlong.trans {paths : List Path} {first second third : FileTree}
    (h : GrowsAlong paths first second) (h' : GrowsAlong paths second third) :
    GrowsAlong paths first third := by
  refine ⟨h.toGrowsTo.trans h'.toGrowsTo, fun place absent there => ?_⟩
  by_cases still : second.kindAt? place = none
  · exact h'.along place still there
  · obtain ⟨path, member, finds⟩ := h.along place absent still
    exact ⟨path, member, finds.extends h'.extends⟩

/-- A directory that is made is all that changes, and its path leads to it. -/
theorem makeDirectory_growsAlong {tree made : FileTree} {path : Path}
    (wellFormed : tree.WellFormed) (h : tree.makeDirectory path = .ok made) :
    GrowsAlong [path] tree made ∧ made.WellFormed := by
  obtain ⟨directory, name, ends, free, rfl⟩ := makeDirectory_eq_ok h
  have grows := growsTo_put (ends.inside wellFormed) free
  have kinds := FileEntry.kindAt?_put (ends.inside wellFormed) (by rw [← kindAt?, free]; simp)
    (show (FileEntry.directory []).entries = [] from rfl)
  refine ⟨⟨grows, ?_⟩, wellFormed.put ends (by simp [free]) rfl ?_⟩
  · intro place absent there
    obtain rfl : place = directory ++ [name] := by
      by_contra other
      rw [kindAt?, put, kinds, if_neg other] at there
      exact there absent
    refine ⟨path, List.mem_singleton_self path, (ends.extends grows.extends).finds_directory ?_⟩
    rw [kindAt?, put, kinds, if_pos rfl]
    rfl
  · exact .directory List.nodup_nil (by simp) (by simp)

/-- No directory is made where there is one, whatever the way to it. -/
theorem makeDirectory_of_isDirectory {tree : FileTree} {path : Path} (wellFormed : tree.WellFormed)
    (h : tree.isDirectory path = true) : tree.makeDirectory path = .error .alreadyExists := by
  obtain ⟨place, ⟨written, leads⟩, isDirectory⟩ := isDirectory_iff.1 h
  have leads := leads.toSlashed isDirectory
  have start := wellFormed.start path.route
  by_cases ends : ∃ name, path.route.steps.getLast? = some (.down name)
  · obtain ⟨name, last⟩ := ends
    obtain ⟨front, cut⟩ := List.getLast?_eq_some_iff.1 last
    have dropped : path.route.steps.dropLast = front := by rw [cut, List.dropLast_concat]
    rw [cut] at leads
    obtain ⟨middle, left, before, -, onward⟩ := leads.split (by simp) front start
    -- Something stands at the last name: a directory, or a link to one.
    obtain ⟨short, kind, found⟩ : name.length ≤ maxNameSize ∧
        ∃ kind, tree.kindAt? (middle ++ [name]) = some kind := by
      cases onward with
      | down short found => exact ⟨short, _, found⟩
      | link short found => exact ⟨short, _, found⟩
    obtain ⟨entry, isEntry, -⟩ := exists_of_kindAt? found
    have ending : tree.EndsIn path middle name := ⟨last, short, by rwa [dropped]⟩
    rw [makeDirectory, lookupEnding_eq_name_iff.2 ⟨ending, rfl⟩]
    simp only [bind, Except.bind, isEntry]
    rfl
  · have turns : ∀ name, path.route.steps.getLast? ≠ some (.down name) :=
      fun name last => ends ⟨name, last⟩
    obtain ⟨middle, before⟩ : ∃ middle, tree.Leads .read maxLinks (tree.start path.route)
        path.route.steps.dropLast true middle := by
      by_cases nothing : path.route.steps = []
      · -- The path leads to where its walk starts.
        rw [nothing]
        exact ⟨_, .here start⟩
      · rw [← List.dropLast_append_getLast nothing] at leads
        obtain ⟨middle, left, before, -, -⟩ := leads.split (by simp) _ start
        exact ⟨middle, before⟩
    rw [makeDirectory, lookupEnding_eq_turn written turns before]
    rfl

/-! ## All directories of a path -/

/-- Making directories lets a tree grow along their paths, also if it stops half-way. -/
theorem createAlong_growsAlong {tree : FileTree} (wellFormed : tree.WellFormed) (paths : List Path) :
    GrowsAlong paths tree (tree.createAlong paths).1 ∧ (tree.createAlong paths).1.WellFormed := by
  have unchanged (paths : List Path) : GrowsAlong paths tree tree ∧ tree.WellFormed :=
    ⟨.refl paths tree, wellFormed⟩
  induction paths with
  | nil => exact unchanged []
  | cons path above ih =>
      have own : [path] ⊆ path :: above := by simp
      have others : above ⊆ path :: above := by simp
      rw [createAlong]
      split
      · exact unchanged _
      · split
        · next made =>
            obtain ⟨grows, stillFormed⟩ := makeDirectory_growsAlong wellFormed made
            exact ⟨grows.mono own, stillFormed⟩
        · -- The directories above come first.
          split
          · next grown e stopped =>
              rw [stopped] at ih
              exact ⟨ih.1.mono others, ih.2⟩
          · next grown finished =>
              rw [finished] at ih
              have before := ih.1.mono others
              split
              · next made =>
                  obtain ⟨grows, stillFormed⟩ := makeDirectory_growsAlong ih.2 made
                  exact ⟨before.trans (grows.mono own), stillFormed⟩
              · exact ⟨before, ih.2⟩
        · exact unchanged _

/-- Making the directories of a path lets a tree grow along the path. -/
theorem createDirectories_growsAlong {tree : FileTree} (wellFormed : tree.WellFormed) (path : Path) :
    GrowsAlong path.ancestors tree (tree.createDirectories path).1 ∧
      (tree.createDirectories path).1.WellFormed :=
  createAlong_growsAlong wellFormed path.ancestors

/-- Nothing is made if the directory is there. -/
theorem createDirectories_of_isDirectory {tree : FileTree} {path : Path}
    (wellFormed : tree.WellFormed) (h : tree.isDirectory path = true) :
    tree.createDirectories path = (tree, .ok ()) := by
  rw [createDirectories, Path.ancestors, createAlong,
    makeDirectory_of_isDirectory wellFormed h, h]
  simp

end DesignTokens.FileTree
