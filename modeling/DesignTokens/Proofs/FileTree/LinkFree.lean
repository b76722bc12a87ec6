import DesignTokens.Proofs.FileTree.Changes

/-!
# Trees without links

In a tree of files and directories a path is walked down as it is written. A walk that looks for a
place to write a file therefore ends at the last name of its path, in the directory that the steps
before lead to (`exists_name_of_walk`), and if that name is no directory the walk finds it
(`EndsIn.lookup_write`).
-/

set_option autoImplicit false

namespace DesignTokens.FileTree

/-- Nothing in a tree is a link. -/
def LinkFree (tree : FileTree) : Prop := ∀ place link, tree.kindAt? place ≠ some (.link link)

/-- What a tree grows by is no link. -/
theorem GrowsTo.linkFree {before after : FileTree} (h : before.GrowsTo after)
    (linkFree : before.LinkFree) : after.LinkFree := by
  intro place link isLink
  rcases h.kinds place with same | ⟨-, made⟩
  · exact linkFree place link (same ▸ isLink)
  · rw [made] at isLink
    exact absurd isLink (by simp)

/-- A tree is without links if all that is no directory is a file. -/
theorem linkFree_of_leaves {tree : FileTree} (names : tree.root.WellNamed)
    (only : tree.root.leaves (fun entry => !entry.isFile) = []) : tree.LinkFree := by
  intro place link isLink
  have member : place ∈ tree.root.leaves fun entry => !entry.isFile :=
    (FileEntry.mem_leaves names place).2 ⟨_, at?_of_kindAt?_link isLink, rfl, rfl⟩
  rw [only] at member
  exact absurd member (by simp)

/-- The place where a file is written if a walk ends at the target: one where nothing is, or that of
a file. -/
def Target.file? : Target → Option Place
  | .free place => some place
  | .found place (.file _) => some place
  | .found _ _ => none

theorem writeFile_eq_ok_iff_lookup {tree after : FileTree} {path : Path} {content : ByteArray} :
    tree.writeFile path content = .ok after ↔
      ∃ target place, tree.lookup .write path = .ok target ∧ target.file? = some place ∧
        after = tree.put place (.file content) := by
  rw [writeFile, bind_eq_ok_iff]
  constructor
  · rintro ⟨target, looked, written⟩
    match target, written with
    | .free place, written => exact ⟨_, place, looked, rfl, (Except.ok.inj written).symm⟩
    | .found place (.file _), written =>
        exact ⟨_, place, looked, rfl, (Except.ok.inj written).symm⟩
  · rintro ⟨target, place, looked, isFile, rfl⟩
    refine ⟨target, looked, ?_⟩
    match target, isFile with
    | .free place, rfl => rfl
    | .found place (.file _), rfl => rfl

/-! ## Walks for writing -/

/-- A walk that ends where a file can be written ends with a step down to a name that no directory
has, and the steps before it lead to the directory of the name. -/
theorem exists_name_of_walk {tree : FileTree} (linkFree : tree.LinkFree) {links : Nat}
    {here place : Place} {steps : List Step} {slashed : Bool} {target : Target}
    (inside : tree.kindAt? here = some .directory)
    (h : tree.walk .write links here steps slashed = .ok target)
    (writes : target.file? = some place) :
    slashed = false ∧ ∃ front directory name, steps = front ++ [.down name] ∧
      name.length ≤ maxNameSize ∧ tree.Leads .read links here front true directory ∧
      place = directory ++ [name] ∧ tree.kindAt? place ≠ some .directory := by
  -- Every step but the last leads into a directory, so `inside` is kept along the walk.
  fun_induction walk tree .write links here steps slashed with
  | case1 links here slashed entry found =>
      -- The walk ends at a directory.
      obtain ⟨entries, isDirectory⟩ := at?_of_kindAt?_directory inside
      obtain rfl := Option.some.inj (found.symm.trans isDirectory)
      obtain rfl := Except.ok.inj h
      exact absurd writes (by simp [Target.file?])
  | case2 => exact absurd h (by simp)
  | case3 links here slashed rest ih =>
      obtain ⟨unslashed, front, directory, name, rfl, short, leads, ends⟩ := ih inside h
      exact ⟨unslashed, .stay :: front, directory, name, rfl, short, .stay leads, ends⟩
  | case4 links here slashed rest ih =>
      obtain ⟨unslashed, front, directory, name, rfl, short, leads, ends⟩ :=
        ih (kindAt?_dropLast inside) h
      exact ⟨unslashed, .up :: front, directory, name, rfl, short, .up leads, ends⟩
  | case5 => exact absurd h (by simp)
  | case6 => exact absurd h (by simp)
  | case7 links here slashed name rest last noDirectory short place' free isLast =>
      -- At its last step the walk is in the directory of the name.
      obtain rfl := List.isEmpty_iff.1 isLast
      obtain rfl := Except.ok.inj h
      obtain rfl := Option.some.inj writes
      refine ⟨by simpa [last] using noDirectory, [], here, name, rfl, Nat.le_of_not_lt short,
        .here inside, rfl, ?_⟩
      rw [kindAt?_eq, free]
      simp
  | case8 => exact absurd h (by simp)
  | case9 links here slashed name rest last _ short place' entries found ih =>
      obtain ⟨unslashed, front, directory, final, rfl, fits, leads, ends⟩ :=
        ih (kindAt?_of_at? found) h
      exact ⟨unslashed, .down name :: front, directory, final, rfl, fits,
        .down (Nat.le_of_not_lt short) (kindAt?_of_at? found) leads, ends⟩
  | case10 links here slashed name rest last _ short place' content found ends =>
      obtain ⟨isLast, unslashed⟩ := (Bool.and_eq_true _ _).mp ends
      obtain rfl := List.isEmpty_iff.1 isLast
      obtain rfl := Except.ok.inj h
      obtain rfl := Option.some.inj writes
      refine ⟨by simpa using unslashed, [], here, name, rfl, Nat.le_of_not_lt short,
        .here inside, rfl, ?_⟩
      rw [kindAt?_of_at? found]
      simp [FileEntry.kind]
  | case11 => exact absurd h (by simp)
  | case12 links here slashed name rest last _ short place' target found =>
      exact absurd (kindAt?_of_at? found) (linkFree _ target)
  | case13 => exact absurd h (by simp)
  | case14 _ _ _ _ _ _ _ _ target found =>
      exact absurd (kindAt?_of_at? found) (linkFree _ target)

/-- A path that ends in a name with no directory behind it is walked for writing to that name. -/
theorem EndsIn.lookup_write {tree : FileTree} {path : Path} {directory : Place} {name : FileName}
    (h : tree.EndsIn path directory name) (linkFree : tree.LinkFree)
    (unslashed : path.route.slashed = false)
    (replaceable : tree.kindAt? (directory ++ [name]) ≠ some .directory) :
    ∃ target, tree.lookup .write path = .ok target ∧
      target.file? = some (directory ++ [name]) := by
  obtain ⟨left, onward⟩ := h.leads.walk_append .write
  rw [lookup, if_neg (text_ne_empty_of_last h.last)]
  dsimp only
  rw [unslashed, h.steps, onward (by simp), walk]
  simp only [Bool.and_false, Bool.false_and, Bool.false_eq_true, if_false,
    if_neg (Nat.not_lt.2 h.short)]
  split
  · exact ⟨_, rfl, rfl⟩
  · next found => exact absurd (kindAt?_of_at? found) replaceable
  · exact ⟨_, rfl, rfl⟩
  · next found => exact absurd (kindAt?_of_at? found) (linkFree _ _)

end DesignTokens.FileTree
