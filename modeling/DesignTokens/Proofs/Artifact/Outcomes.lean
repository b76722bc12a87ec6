import DesignTokens.Proofs.Artifact.Writing
import DesignTokens.Proofs.FileTree.LinkFree

/-!
# Writes that succeed and writes that fail

In a tree of files and directories a plain write ends as an atomic one does, and leaves the same tree
(`plain_and_atomic_writes_agree`), since both put the file where the path ends in a name with no
directory behind it, and nowhere else (`writeAtomic_eq_ok_iff`, `writeFile_eq_ok_iff`). An atomic
write is all or nothing: the stylesheet is read back from its path, or the files are as they were;
either way no more than directories above the destination are made
(`atomic_write_is_all_or_nothing`).
-/

set_option autoImplicit false

namespace DesignTokens

/-! ## Plain writes -/

/-- **What a plain write does** to a tree without links: where a path ends in a name with no
directory behind it, it puts the file there, and it succeeds nowhere else. -/
theorem FileTree.writeFile_eq_ok_iff {tree after : FileTree} {path : Path} {content : ByteArray}
    (wellFormed : tree.WellFormed) (linkFree : tree.LinkFree) :
    tree.writeFile path content = .ok after ↔
      ∃ directory name, tree.Writable path directory name ∧
        after = tree.put (directory ++ [name]) (.file content) := by
  rw [writeFile_eq_ok_iff_lookup]
  constructor
  · rintro ⟨target, place, looked, isFile, rfl⟩
    rw [lookup] at looked
    split at looked
    · exact absurd looked (by simp)
    · obtain ⟨unslashed, front, directory, name, steps, short, leads, rfl, replaceable⟩ :=
        exists_name_of_walk linkFree (wellFormed.start _) looked isFile
      have ends : tree.EndsIn path directory name :=
        ⟨by rw [steps, List.getLast?_concat], short, by rwa [steps, List.dropLast_concat]⟩
      exact ⟨directory, name, ⟨ends, unslashed, replaceable⟩, rfl⟩
  · rintro ⟨directory, name, writable, rfl⟩
    obtain ⟨target, looked, isFile⟩ :=
      writable.toEndsIn.lookup_write linkFree writable.unslashed writable.replaceable
    exact ⟨target, _, looked, isFile, rfl⟩

namespace Artifact

open FileTree

theorem eq_of_writePlain_eq_error {tree after : FileTree} {path : Path} {content : ByteArray}
    {e : StorageError} (h : writePlain tree path content = (after, .error e)) : after = tree := by
  rw [writePlain] at h
  split at h
  · exact absurd h (by simp)
  · exact (Prod.mk.inj h).1.symm

/-- Without links a plain and an atomic write succeed with the same tree. -/
theorem writePlain_eq_ok_iff {tree after : FileTree} {path : Path} {content : ByteArray}
    (wellFormed : tree.WellFormed) (linkFree : tree.LinkFree) :
    writePlain tree path content = (after, .ok ()) ↔
      writeAtomic tree path content = (after, .ok ()) := by
  rw [writeAtomic_eq_ok_iff wellFormed, ← writeFile_eq_ok_iff wellFormed linkFree, writePlain]
  split
  · next written isWritten => simp [isWritten]
  · next e failed => simp [failed]

/-- Without links a plain and an atomic write end alike. -/
theorem writePlain_agrees {tree : FileTree} (wellFormed : tree.WellFormed)
    (linkFree : tree.LinkFree) (path : Path) (content : ByteArray) :
    (writePlain tree path content).1 = (writeAtomic tree path content).1 ∧
      ((writePlain tree path content).2 = .ok () ↔ (writeAtomic tree path content).2 = .ok ()) := by
  cases plain : writePlain tree path content with
  | mk after result =>
      cases result with
      | ok =>
          rw [(writePlain_eq_ok_iff wellFormed linkFree).1 plain]
          exact ⟨rfl, Iff.rfl⟩
      | error e =>
          cases atomic : writeAtomic tree path content with
          | mk changed outcome =>
              cases outcome with
              | ok =>
                  -- The plain write would have succeeded too.
                  rw [(writePlain_eq_ok_iff wellFormed linkFree).2 atomic] at plain
                  exact absurd plain (by simp)
              | error e' =>
                  rw [eq_of_writePlain_eq_error plain, eq_of_writeAtomic_eq_error wellFormed atomic]
                  simp

/-! ## A write that stops half-way -/

/-- A directory with a stylesheet in it, and other entries beside the directory. -/
def builtBefore (others : List (FileName × FileEntry)) : FileTree :=
  ⟨.directory (("o", .directory [("a.css", .file "x".toUTF8)]) :: others), []⟩

theorem wellFormed_builtBefore : (builtBefore []).WellFormed := by
  have isO : IsName "o" := ⟨by decide, by decide, by decide, by decide, by decide⟩
  have isA : IsName "a.css" := ⟨by decide, by decide, by decide, by decide, by decide⟩
  have inner : (FileEntry.directory [("a.css", .file "x".toUTF8)]).WellNamed :=
    .directory (by simp) (by simpa using isA) (by simpa using FileEntry.WellNamed.file _)
  exact ⟨.directory (by simp) (by simpa using isO) (by simpa using inner), rfl⟩

theorem linkFree_builtBefore : (builtBefore []).LinkFree := by
  refine linkFree_of_leaves wellFormed_builtBefore.names ?_
  simp [builtBefore, FileEntry.leaves, FileEntry.leavesOfEach, FileEntry.sortByName,
    FileEntry.placesUnder, FileEntry.isFile]

/-- The directory above the destination is made, and then the destination is a directory. -/
theorem write_onto_directory (css : String) :
    write .standard (builtBefore []) ⟨"n/../o"⟩ css =
      (builtBefore [("n", .directory [])], .error (.persist .isDirectory)) := by
  have above : Path.directory ⟨"n/../o"⟩ = ⟨"n/.."⟩ := by decide
  have created : (builtBefore []).createDirectories ⟨"n/.."⟩ =
      (builtBefore [("n", .directory [])], .ok ()) := by
    rw [builtBefore, builtBefore]
    generalize "x".toUTF8 = held
    cbv
  have made : prepareDirectory .standard (builtBefore []) ⟨"n/../o"⟩ =
      (builtBefore [("n", .directory [])], .ok ()) := by
    rw [prepareDirectory, above, created]
    rfl
  have stopped (content : ByteArray) :
      writeAtomic (builtBefore [("n", .directory [])]) ⟨"n/../o"⟩ content =
        (builtBefore [("n", .directory [])], .error (.persist .isDirectory)) := by
    rw [writeAtomic, above, builtBefore]
    generalize "x".toUTF8 = held
    cbv
  rw [write, made]
  exact stopped css.toUTF8

/-! ## Plain and atomic writes -/

/-- **Plain and atomic writes agree**: in a tree of files and directories a stylesheet is written
to a path by the one if and only if it is by the other, and both leave the same tree, also if they
fail. -/
theorem plain_and_atomic_writes_agree {tree : FileTree} (wellFormed : tree.WellFormed)
    (linkFree : tree.LinkFree) (createDirectories : Bool) (path : Path) (css : String) :
    ((write ⟨createDirectories, true⟩ tree path css).2 = .ok () ↔
      (write ⟨createDirectories, false⟩ tree path css).2 = .ok ()) ∧
    (write ⟨createDirectories, true⟩ tree path css).1 =
      (write ⟨createDirectories, false⟩ tree path css).1 := by
  obtain ⟨grows, stillFormed, -⟩ :=
    prepareDirectory_growsAlong ⟨createDirectories, true⟩ wellFormed path
  -- Both make the same directories, before their ways part.
  have same : prepareDirectory ⟨createDirectories, false⟩ tree path =
      prepareDirectory ⟨createDirectories, true⟩ tree path := rfl
  rw [write, write, same]
  cases made : prepareDirectory ⟨createDirectories, true⟩ tree path with
  | mk grown outcome =>
      rw [made] at grows stillFormed
      cases outcome with
      | error e => exact ⟨Iff.rfl, rfl⟩
      | ok =>
          obtain ⟨sameTree, sameResult⟩ := writePlain_agrees stillFormed
            (grows.toGrowsTo.linkFree linkFree) path css.toUTF8
          exact ⟨sameResult.symm, sameTree.symm⟩

/-- A plain write onto a directory stops half-way, where the atomic one stops. -/
theorem plain_write_stops_with_atomic :
    (builtBefore []).WellFormed ∧ (builtBefore []).LinkFree ∧
      (write ⟨true, false⟩ (builtBefore []) ⟨"n/../o"⟩ "y").1 =
        builtBefore [("n", .directory [])] ∧
      (write ⟨true, false⟩ (builtBefore []) ⟨"n/../o"⟩ "y").2 ≠ .ok () := by
  have stopped := write_onto_directory "y"
  obtain ⟨sameResult, sameTree⟩ := plain_and_atomic_writes_agree wellFormed_builtBefore
    linkFree_builtBefore true ⟨"n/../o"⟩ "y"
  refine ⟨wellFormed_builtBefore, linkFree_builtBefore,
    sameTree.symm.trans (congrArg Prod.fst stopped), fun succeeds => ?_⟩
  exact absurd ((congrArg Prod.snd stopped).symm.trans (sameResult.2 succeeds)) (by simp)

/-! ## All or nothing -/

/-- A directory has been made above a destination: directories are wanted, nothing was at its place,
and a path above the destination leads there. -/
structure MadeAbove (options : WriteOptions) (path : Path) (before after : FileTree)
    (place : Place) : Prop where
  wanted : options.createDirectories = true
  absent : before.kindAt? place = none
  made : after.kindAt? place = some .directory
  above : ∃ ancestor ∈ path.directory.ancestors, after.Finds .read ancestor place

/-- Everything is as it was, but for a file that has been written, if one has, and for directories
made above the destination. -/
structure KeepsOthers (options : WriteOptions) (path : Path) (before after : FileTree)
    (written : Option Place) : Prop where
  working : after.working = before.working
  places : ∀ place, written ≠ some place →
    after.kindAt? place = before.kindAt? place ∨ MadeAbove options path before after place
  /-- A path that led to another file reads what it read. -/
  files : ∀ other held, before.readFile other = .ok held → before.place? other ≠ written →
    after.readFile other = .ok held

theorem keepsOthers_of_growsAlong {options : WriteOptions} {path : Path} {before grown : FileTree}
    (grows : GrowsAlong path.directory.ancestors before grown)
    (unwanted : options.createDirectories = false → grown = before) :
    KeepsOthers options path before grown none := by
  refine ⟨grows.working, fun place _ => ?_, fun other held isRead _ => ?_⟩
  · rcases grows.kinds place with same | ⟨absent, made⟩
    · exact Or.inl same
    · refine Or.inr ⟨?_, absent, made, grows.along place absent (by simp [made])⟩
      -- Nothing is made that is not wanted.
      by_contra wanted
      rw [unwanted (Bool.eq_false_iff.2 wanted), absent] at made
      exact absurd made (by simp)
  · obtain ⟨place, found, isFile⟩ := finds_of_readFile isRead
    exact readFile_of_finds (found.extends grows.extends) (grows.extends.kept _ _ isFile)

/-- Writing a file keeps what it does not replace, if that is no link. -/
theorem KeepsOthers.overwritten {options : WriteOptions} {path : Path}
    {before grown after : FileTree} {written : Place} {content : ByteArray}
    (h : KeepsOthers options path before grown none) (more : before.Extends grown)
    (overwrites : grown.Overwrites after written content)
    (noLink : ∀ link, grown.kindAt? written ≠ some (.link link)) :
    KeepsOthers options path before after (some written) := by
  refine ⟨overwrites.working.trans h.working, fun place apart => ?_,
    fun other held isRead apart => ?_⟩
  · have same := overwrites.kind_other place fun h => apart (congrArg some h.symm)
    rcases h.places place (by simp) with kept | ⟨wanted, absent, made, ancestor, above, found⟩
    · exact Or.inl (same.trans kept)
    · exact Or.inr ⟨wanted, absent, same.trans made, ancestor, above,
        found.overwritten overwrites noLink⟩
  · obtain ⟨place, found, isFile⟩ := finds_of_readFile isRead
    rw [place?_eq_some_iff.2 found] at apart
    have same := overwrites.kind_other place fun h => apart (congrArg some h)
    exact readFile_of_finds ((found.extends more).overwritten overwrites noLink)
      (same.trans (more.kept _ _ isFile))

/-- **An atomic write is all or nothing** in a tree of files and directories. If it succeeds, the
stylesheet is read back from its path, and every other file is as it was. If it fails, every file is
as it was. New are at most directories above the destination, and these only if they are wanted. -/
theorem atomic_write_is_all_or_nothing {options : WriteOptions} (atomic : options.atomic = true)
    {tree : FileTree} (wellFormed : tree.WellFormed) (linkFree : tree.LinkFree) (path : Path)
    (css : String) :
    ∃ after,
      (write options tree path css = (after, .ok ()) ∧ read after path = .ok (some css) ∧
        ∃ written, after.place? path = some written ∧
          KeepsOthers options path tree after (some written)) ∨
      (∃ e, write options tree path css = (after, .error e)) ∧
        KeepsOthers options path tree after none := by
  obtain ⟨grown, grows, stillFormed, unwanted, outcome⟩ := write_cases atomic wellFormed path css
  have kept := keepsOthers_of_growsAlong grows unwanted
  rcases outcome with ⟨directory, name, writable, written⟩ | failed
  · have stored := stored_put grows.toGrowsTo stillFormed writable css.toUTF8
    -- No link is replaced, so the path still leads to where the file has been put.
    have noLink := grows.toGrowsTo.linkFree linkFree (directory ++ [name])
    have isThere := stored.directory_kept noLink
    exact ⟨_, Or.inl ⟨written, read_eq_some_iff.2 (stored.readFile isThere), _,
      place?_eq_some_iff.2 (stored.finds isThere),
      kept.overwritten grows.extends stored.overwrites noLink⟩⟩
  · exact ⟨grown, Or.inr ⟨failed, kept⟩⟩

/-- A write that stops half-way keeps the stylesheet that is there, and one that does not replaces
it. -/
theorem stylesheet_is_kept_or_replaced :
    (builtBefore []).WellFormed ∧ (builtBefore []).LinkFree ∧
      (∃ after e, write .standard (builtBefore []) ⟨"n/../o"⟩ "y" = (after, .error e) ∧
        after.kindAt? ["n"] = some .directory ∧ after.readFile ⟨"o/a.css"⟩ = .ok "x".toUTF8) ∧
      ∃ after, write .standard (builtBefore []) ⟨"o/a.css"⟩ "y" = (after, .ok ()) ∧
        read after ⟨"o/a.css"⟩ = .ok (some "y") := by
  have isDirectory : (builtBefore []).kindAt? ["o"] = some .directory := rfl
  have isFile : (builtBefore []).kindAt? ["o", "a.css"] = some (.file "x".toUTF8) := rfl
  have found : (builtBefore []).Finds .read ⟨"o/a.css"⟩ ["o", "a.css"] :=
    ⟨by decide, .down (by decide) isDirectory (.file (by decide) isFile)⟩
  refine ⟨wellFormed_builtBefore, linkFree_builtBefore, ?_, ?_⟩
  · obtain ⟨after, ⟨succeeds, -⟩ | ⟨⟨e, failed⟩, kept⟩⟩ := @atomic_write_is_all_or_nothing
      .standard rfl _ wellFormed_builtBefore linkFree_builtBefore ⟨"n/../o"⟩ "y"
    · exact absurd ((write_onto_directory "y").symm.trans succeeds) (by simp)
    · refine ⟨after, e, failed, ?_, ?_⟩
      · rw [← (Prod.mk.inj ((write_onto_directory "y").symm.trans failed)).1]
        rfl
      · refine kept.files _ _ (readFile_of_finds found isFile) ?_
        rw [place?_eq_some_iff.2 found]
        simp
  · have leads : (builtBefore []).Leads .read maxLinks [] [.down "o"] true ["o"] :=
      .down (by decide) isDirectory (.here isDirectory)
    have writable : (builtBefore []).Writable ⟨"o/a.css"⟩ ["o"] "a.css" :=
      ⟨⟨rfl, by decide, leads⟩, rfl, ne_of_eq_of_ne isFile (by simp)⟩
    have isThere : (builtBefore []).isDirectory (Path.directory ⟨"o/a.css"⟩) = true :=
      isDirectory_iff.2 ⟨["o"], ⟨by decide, leads.toUnslashed false⟩, isDirectory⟩
    have written := write_of_writable wellFormed_builtBefore isThere writable "y"
    obtain ⟨after, ⟨succeeds, isRead, -⟩ | ⟨⟨e, failed⟩, -⟩⟩ := @atomic_write_is_all_or_nothing
      .standard rfl _ wellFormed_builtBefore linkFree_builtBefore ⟨"o/a.css"⟩ "y"
    · exact ⟨after, succeeds, isRead⟩
    · exact absurd (written.symm.trans failed) (by simp)

end Artifact

end DesignTokens
