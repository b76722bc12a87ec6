import DesignTokens.Artifact
import DesignTokens.Proofs.FileTree.Changes
import DesignTokens.Proofs.Text.Octets

/-!
# What storing a stylesheet does

An atomic write succeeds exactly at a path that ends in a name with no directory behind it, and it
leaves the tree with the file at that name and nothing else (`writeAtomic_eq_ok_iff`): the prepared
file is gone, as it is if the write fails (`eq_of_writeAtomic_eq_error`). So storing a stylesheet lets
the tree grow by directories and then writes over one place or none (`write_cases`). If the directory
of the path is still there afterwards, the path leads to the stylesheet (`Stored.finds`), and storing
it again leaves it there (`Stored.again`).
-/

set_option autoImplicit false

namespace DesignTokens

namespace FileTree

/-! ## The prepared file -/

/-- A fresh name is the name of no entry. -/
theorem freshName_notMem (entries : List (FileName × FileEntry)) :
    freshName entries ∉ entries.map Prod.fst := by
  have bound : ∀ (lengths : List Nat) (start : Nat), start ≤ lengths.foldl max start ∧
      ∀ length ∈ lengths, length ≤ lengths.foldl max start := by
    intro lengths
    induction lengths with
    | nil => exact fun start => ⟨Nat.le_refl start, by simp⟩
    | cons length rest ih =>
        intro start
        obtain ⟨above, rest_below⟩ := ih (max start length)
        rw [List.foldl_cons]
        refine ⟨by omega, fun other member => ?_⟩
        rcases List.mem_cons.1 member with rfl | later
        · omega
        · exact rest_below other later
  intro taken
  obtain ⟨part, member, same⟩ := List.mem_map.1 taken
  have short := (bound (entries.map fun entry => entry.1.length) 0).2 part.1.length
    (List.mem_map_of_mem member)
  have long : part.1.length = 4 + (entries.map fun entry => entry.1.length).foldl max 0 := by
    rw [same, freshName, List.length_append, List.length_replicate]
    rfl
  omega

theorem makeTemporary_eq_ok_iff {tree prepared : FileTree} {directory : Path} {content : ByteArray}
    {temporary : Place} :
    tree.makeTemporary directory content = .ok (prepared, temporary) ↔
      directory.octets ≠ [] ∧ ∃ place,
        tree.Leads .read maxLinks (tree.start directory.route) directory.route.steps true place ∧
        temporary = place ++ [freshName ((tree.at? place).elim [] FileEntry.entries)] ∧
        prepared = tree.put temporary (.file content) := by
  rw [makeTemporary]
  by_cases written : directory.octets = []
  · simp [written, bind, Except.bind, throw, throwThe, MonadExceptOf.throw]
  · simp only [if_neg written, bind_eq_ok_iff, lookupDirectory_eq_ok_iff, pure, Except.pure,
      Except.ok.injEq, Prod.mk.injEq]
    constructor
    · rintro ⟨place, leads, rfl, rfl⟩
      exact ⟨written, place, leads, rfl, rfl⟩
    · rintro ⟨-, place, leads, rfl, rfl⟩
      exact ⟨place, leads, rfl, rfl⟩

/-- A file can be written at the name that a path ends in. -/
structure Writable (tree : FileTree) (path : Path) (directory : Place) (name : FileName) : Prop
    extends tree.EndsIn path directory name where
  unslashed : path.route.slashed = false
  replaceable : tree.kindAt? (directory ++ [name]) ≠ some .directory

theorem moveFile_eq_ok_iff {tree moved : FileTree} {source : Place} {content : ByteArray}
    {path : Path} :
    tree.moveFile source content path = .ok moved ↔
      ∃ directory name, tree.Writable path directory name ∧
        moved = (tree.erase source).put (directory ++ [name]) (.file content) := by
  rw [moveFile, bind_eq_ok_iff]
  constructor
  · rintro ⟨ending, looked, h⟩
    cases ending with
    | turn => exact absurd h nofun
    | name directory name slashed =>
        obtain ⟨ends, rfl⟩ := lookupEnding_eq_name_iff.1 looked
        dsimp only at h
        cases slash : path.route.slashed with
        | true =>
            rw [slash] at h
            exact absurd h nofun
        | false =>
            rw [slash] at h
            simp only [Bool.false_eq_true, if_false, bind, Except.bind, pure, Except.pure] at h
            split at h
            · exact absurd h nofun
            · next noDirectory =>
                refine ⟨directory, name, ⟨ends, slash, ?_⟩, (Except.ok.inj h).symm⟩
                intro isDirectory
                obtain ⟨entries, found⟩ := at?_of_kindAt?_directory isDirectory
                exact noDirectory entries found
  · rintro ⟨directory, name, writable, rfl⟩
    refine ⟨_, lookupEnding_eq_name_iff.2 ⟨writable.toEndsIn, rfl⟩, ?_⟩
    simp only [writable.unslashed, Bool.false_eq_true, if_false, bind, Except.bind, pure,
      Except.pure]
    split
    · next found => exact absurd (kindAt?_of_at? found) writable.replaceable
    · rfl

/-- A prepared file is one more file, under a name that no entry has, and clearing its place gives
the tree back. -/
theorem prepared {tree : FileTree} {directory : Place}
    (inside : tree.kindAt? directory = some .directory) (content : ByteArray) :
    ∃ temporary, directory ++ [freshName ((tree.at? directory).elim [] FileEntry.entries)] =
        temporary ∧
      tree.kindAt? temporary = none ∧
      tree.Overwrites (tree.put temporary (.file content)) temporary content ∧
      (tree.put temporary (.file content)).erase temporary = tree := by
  obtain ⟨entries, found⟩ := at?_of_kindAt?_directory inside
  have new := freshName_notMem entries
  have free : tree.kindAt? (directory ++ [freshName entries]) = none := by
    have absent : OrderedMap.lookup (freshName entries) entries = none :=
      Option.not_isSome_iff_eq_none.1 fun taken =>
        new ((OrderedMap.lookup_isSome_iff _ _).1 taken)
    have below : tree.at? (directory ++ [freshName entries]) = none := by
      rw [at?, FileEntry.at?_append, ← at?, found]
      show (FileEntry.child? (.directory entries) _).bind _ = none
      rw [FileEntry.child?_directory, absent]
      rfl
    rw [kindAt?_eq, below]
    rfl
  have held : (tree.at? directory).elim [] FileEntry.entries = entries := by
    rw [found]
    rfl
  rw [held]
  refine ⟨_, rfl, free, overwrites_put inside (by simp [free]) content, ?_⟩
  rw [erase, put]
  congr 1
  exact FileEntry.erase_put_of_new found new _

end FileTree

/-! ## Texts of files -/

namespace FileTree

theorem readText_eq_ok_iff {tree : FileTree} {path : Path} {text : String} :
    tree.readText path = .ok text ↔ tree.readFile path = .ok text.toUTF8 := by
  rw [readText, bind_eq_ok_iff]
  constructor
  · rintro ⟨octets, held, isText⟩
    split at isText
    · next other found =>
        obtain rfl := Except.ok.inj isText
        rw [held, fromUTF8?_eq_some_iff.1 found]
    · exact absurd isText nofun
  · intro held
    refine ⟨_, held, ?_⟩
    rw [fromUTF8?_eq_some_iff.2 rfl]
    rfl

end FileTree

namespace Artifact

open FileTree

theorem read_eq_some_iff {tree : FileTree} {path : Path} {css : String} :
    read tree path = .ok (some css) ↔ tree.readFile path = .ok css.toUTF8 := by
  rw [← readText_eq_ok_iff, read]
  split
  · next text found => simp [found]
  · next missing => simp [missing]
  · next e _ failed => simp [failed]

/-! ## Atomic writes -/

/-- **What an atomic write does**: where a path ends in a name with no directory behind it, it puts
the file there, and it succeeds nowhere else. -/
theorem writeAtomic_eq_ok_iff {tree after : FileTree} {path : Path} {content : ByteArray}
    (wellFormed : tree.WellFormed) :
    writeAtomic tree path content = (after, .ok ()) ↔
      ∃ directory name, tree.Writable path directory name ∧
        after = tree.put (directory ++ [name]) (.file content) := by
  constructor
  · intro h
    unfold writeAtomic at h
    split at h
    · exact absurd h (by simp)
    · next made temporary isMade =>
        obtain ⟨-, place, leads, rfl, rfl⟩ := makeTemporary_eq_ok_iff.1 isMade
        obtain ⟨temporary, isTemporary, free, overwrites, undone⟩ :=
          prepared (leads.directory (wellFormed.start _)) content
        rw [isTemporary] at h isMade
        split at h
        · next moved isMoved =>
            obtain ⟨rfl⟩ := (Prod.mk.inj h).1
            obtain ⟨directory, name, writable, rfl⟩ := moveFile_eq_ok_iff.1 isMoved
            have more := overwrites.extends (Or.inl free)
            have inside : (tree.put temporary (.file content)).kindAt? directory =
                some .directory :=
              writable.leads.directory (more.kept _ _ (wellFormed.start _))
            refine ⟨directory, name, ⟨⟨writable.last, writable.short, ?_⟩, writable.unslashed,
              fun isDirectory => writable.replaceable (more.kept _ _ isDirectory)⟩, by rw [undone]⟩
            rcases writable.leads.of_overwrites overwrites with rfl | leads
            · -- The prepared file is no directory.
              rw [overwrites.kind_written] at inside
              exact absurd inside (by simp)
            · exact leads
        · exact absurd h (by simp)
  · rintro ⟨directory, name, writable, rfl⟩
    obtain ⟨temporary, isTemporary, free, overwrites, undone⟩ :=
      prepared (writable.inside wellFormed) content
    have made := (@makeTemporary_eq_ok_iff tree _ _ content _).2
      ⟨(Path.route_directory writable.last writable.unslashed).1, directory,
        (leads_directory writable.last writable.unslashed).2 writable.leads, isTemporary.symm, rfl⟩
    have more := overwrites.extends (Or.inl free)
    have writable' : (tree.put temporary (.file content)).Writable path directory name := by
      refine ⟨⟨writable.last, writable.short, writable.leads.extends more⟩, writable.unslashed, ?_⟩
      intro isDirectory
      by_cases same : directory ++ [name] = temporary
      · rw [same, overwrites.kind_written] at isDirectory
        exact absurd isDirectory (by simp)
      · exact writable.replaceable ((overwrites.kind_other _ same).symm.trans isDirectory)
    unfold writeAtomic
    rw [made]
    dsimp only
    rw [moveFile_eq_ok_iff.2 ⟨directory, name, writable', rfl⟩, undone]

/-- An atomic write that fails leaves the tree as it was: the prepared file is gone. -/
theorem eq_of_writeAtomic_eq_error {tree after : FileTree} {path : Path} {content : ByteArray}
    {e : StorageError} (wellFormed : tree.WellFormed)
    (h : writeAtomic tree path content = (after, .error e)) : after = tree := by
  unfold writeAtomic at h
  split at h
  · exact (Prod.mk.inj h).1.symm
  · next made temporary isMade =>
      obtain ⟨-, place, leads, rfl, rfl⟩ := makeTemporary_eq_ok_iff.1 isMade
      obtain ⟨temporary, isTemporary, -, -, undone⟩ :=
        prepared (leads.directory (wellFormed.start _)) content
      rw [isTemporary] at h
      split at h
      · exact absurd h (by simp)
      · rw [undone] at h
        exact (Prod.mk.inj h).1.symm

/-! ## Storing -/

/-- A file has been stored: the tree grew by directories, and the file was written over the name that
the path ends in. -/
structure Stored (before : FileTree) (path : Path) (content : ByteArray) (after grown : FileTree)
    (directory : Place) (name : FileName) : Prop where
  grows : before.GrowsTo grown
  writable : grown.Writable path directory name
  overwrites : grown.Overwrites after (directory ++ [name]) content
  wellFormed : after.WellFormed

theorem stored_put {before grown : FileTree} {path : Path} {directory : Place} {name : FileName}
    (grows : before.GrowsTo grown) (wellFormed : grown.WellFormed)
    (writable : grown.Writable path directory name) (content : ByteArray) :
    Stored before path content (grown.put (directory ++ [name]) (.file content)) grown directory
      name :=
  ⟨grows, writable, overwrites_put (writable.inside wellFormed) writable.replaceable content,
    wellFormed.put writable.toEndsIn writable.replaceable rfl (.file content)⟩

/-- Before a stylesheet is written, the tree grows by directories along the directory of its path,
if directories are wanted. -/
theorem prepareDirectory_growsAlong (options : WriteOptions) {tree : FileTree}
    (wellFormed : tree.WellFormed) (path : Path) :
    GrowsAlong path.directory.ancestors tree (prepareDirectory options tree path).1 ∧
      (prepareDirectory options tree path).1.WellFormed ∧
      (options.createDirectories = false → (prepareDirectory options tree path).1 = tree) := by
  cases wanted : options.createDirectories with
  | false =>
      have unchanged : (prepareDirectory options tree path).1 = tree := by
        simp [prepareDirectory, wanted]
      rw [unchanged]
      exact ⟨.refl _ tree, wellFormed, fun _ => rfl⟩
  | true =>
      have same : (prepareDirectory options tree path).1 =
          (tree.createDirectories path.directory).1 := by
        rw [prepareDirectory, if_pos wanted]
        split <;> next created => rw [created]
      obtain ⟨grows, stillFormed⟩ := createDirectories_growsAlong wellFormed path.directory
      rw [same]
      exact ⟨grows, stillFormed, by simp⟩

/-- **How an atomic write ends**: the tree grows above the destination, if that is wanted. Then the
file is put where the path ends, or nothing else is changed. -/
theorem write_cases {options : WriteOptions} (atomic : options.atomic = true) {tree : FileTree}
    (wellFormed : tree.WellFormed) (path : Path) (css : String) :
    ∃ grown, GrowsAlong path.directory.ancestors tree grown ∧ grown.WellFormed ∧
      (options.createDirectories = false → grown = tree) ∧
      ((∃ directory name, grown.Writable path directory name ∧ write options tree path css =
          (grown.put (directory ++ [name]) (.file css.toUTF8), .ok ())) ∨
        ∃ e, write options tree path css = (grown, .error e)) := by
  obtain ⟨grows, stillFormed, unwanted⟩ := prepareDirectory_growsAlong options wellFormed path
  refine ⟨_, grows, stillFormed, unwanted, ?_⟩
  rw [write]
  cases made : prepareDirectory options tree path with
  | mk grown outcome =>
      rw [made] at stillFormed
      cases outcome with
      -- The directories above could be made in part only.
      | error e => exact Or.inr ⟨e, rfl⟩
      | ok =>
          dsimp only
          rw [if_pos atomic]
          cases written : writeAtomic grown path css.toUTF8 with
          | mk after result =>
              cases result with
              | error e => exact Or.inr ⟨e, by rw [eq_of_writeAtomic_eq_error stillFormed written]⟩
              | ok =>
                  obtain ⟨directory, name, writable, rfl⟩ :=
                    (writeAtomic_eq_ok_iff stillFormed).1 written
                  exact Or.inl ⟨directory, name, writable, rfl⟩

/-- **A stylesheet that is stored is written over one place** of a tree that has grown by directories
at most. -/
theorem write_eq_ok {options : WriteOptions} {tree after : FileTree} {path : Path} {css : String}
    (atomic : options.atomic = true) (wellFormed : tree.WellFormed)
    (h : write options tree path css = (after, .ok ())) :
    ∃ grown directory name, Stored tree path css.toUTF8 after grown directory name := by
  obtain ⟨grown, grows, stillFormed, -, ⟨directory, name, writable, written⟩ | ⟨e, failed⟩⟩ :=
    write_cases atomic wellFormed path css
  · obtain rfl := (Prod.mk.inj (h.symm.trans written)).1
    exact ⟨grown, directory, name, stored_put grows.toGrowsTo stillFormed writable _⟩
  · exact absurd (h.symm.trans failed) (by simp)

/-- A stylesheet is stored where its directory is there and a file can be written. -/
theorem write_of_writable {tree : FileTree} {path : Path} {directory : Place} {name : FileName}
    (wellFormed : tree.WellFormed) (isThere : tree.isDirectory path.directory = true)
    (writable : tree.Writable path directory name) (css : String) :
    write .standard tree path css =
      (tree.put (directory ++ [name]) (.file css.toUTF8), .ok ()) := by
  simp only [write, prepareDirectory, WriteOptions.standard, if_true,
    createDirectories_of_isDirectory wellFormed isThere]
  exact (writeAtomic_eq_ok_iff wellFormed).2 ⟨directory, name, writable, rfl⟩

section Stored

variable {before after grown : FileTree} {path : Path} {content : ByteArray} {directory : Place}
  {name : FileName}

/-- The file can be written again if its directory is still there: the place is the same one. -/
theorem Stored.writable_again (h : Stored before path content after grown directory name)
    (kept : after.isDirectory path.directory = true) : after.Writable path directory name := by
  have overwrites := h.overwrites
  obtain ⟨place, ⟨-, leads⟩, isDirectory⟩ := isDirectory_iff.1 kept
  have leads := (leads_directory h.writable.last h.writable.unslashed).1
    (leads.toSlashed isDirectory)
  have noFile : after.kindAt? (directory ++ [name]) ≠ some .directory := by
    rw [overwrites.kind_written]
    simp
  obtain rfl : place = directory := by
    rcases leads.of_overwrites overwrites with rfl | earlier
    · exact absurd isDirectory noFile
    · rw [start_congr overwrites.working] at earlier
      exact earlier.unique (by decide) h.writable.leads
  exact ⟨⟨h.writable.last, h.writable.short, leads⟩, h.writable.unslashed, noFile⟩

/-- The path leads to the file that has been stored, if its directory is still there. -/
theorem Stored.finds (h : Stored before path content after grown directory name)
    (kept : after.isDirectory path.directory = true) :
    after.Finds .read path (directory ++ [name]) :=
  (h.writable_again kept).finds h.writable.unslashed h.overwrites.kind_written

/-- The directory of the file is still there if no link has been replaced. -/
theorem Stored.directory_kept (h : Stored before path content after grown directory name)
    (noLink : ∀ link, grown.kindAt? (directory ++ [name]) ≠ some (.link link)) :
    after.isDirectory path.directory = true := by
  have leads := h.writable.leads.overwritten h.overwrites noLink
  rw [start_congr h.overwrites.working.symm] at leads
  have onward := (leads_directory h.writable.last h.writable.unslashed).2 leads
  refine isDirectory_iff.2 ⟨directory, ⟨?_, onward.toUnslashed _⟩,
    leads.directory (h.wellFormed.start _)⟩
  exact (Path.route_directory h.writable.last h.writable.unslashed).1

theorem Stored.readFile (h : Stored before path content after grown directory name)
    (kept : after.isDirectory path.directory = true) : after.readFile path = .ok content :=
  readFile_of_finds (h.finds kept) h.overwrites.kind_written

end Stored

/-- **Storing a stylesheet again leaves it as it is**, if its directory is still there. -/
theorem Stored.again {before after grown : FileTree} {path : Path} {css : String}
    {directory : Place} {name : FileName}
    (h : Stored before path css.toUTF8 after grown directory name)
    (kept : after.isDirectory path.directory = true) :
    ∃ again, write .standard after path css = (again, .ok ()) ∧
      again.readFile path = .ok css.toUTF8 := by
  have writable := h.writable_again kept
  have stored := stored_put (.refl after) h.wellFormed writable css.toUTF8
  refine ⟨_, write_of_writable h.wellFormed kept writable css, ?_⟩
  -- The file replaces itself.
  have same := stored.overwrites.extends (Or.inr h.overwrites.kind_written)
  exact readFile_of_finds ((h.finds kept).extends same) stored.overwrites.kind_written

end Artifact

end DesignTokens
