import DesignTokens.Proofs.Artifact.Writing
import DesignTokens.Proofs.Loading.Documents

/-!
# Documents beside a stored stylesheet

Storing a stylesheet changes the very tree that its documents are in: directories are made, a link
or a document may be replaced, and the stylesheet may have the name of a document. If the lookups of
the input and of the output are not disturbed by it (`Undisturbed`), the documents that contribute
are the same as before (`survivors_after_write`).
-/

set_option autoImplicit false

namespace DesignTokens

open FileTree

/-- What the input and the output lead to has not been disturbed by storing a stylesheet. -/
structure Undisturbed (before after : FileTree) (input output : Path) : Prop where
  /-- No document is the file that has been written. -/
  documents : ∀ path ∈ before.discover input, before.place? path ≠ after.place? output
  /-- The directory of the output is still there. -/
  output : after.isDirectory output.directory = true
  /-- The input leads to where it led; or it led nowhere, and leads now to where no file was. -/
  input : after.place? input = before.place? input ∨
    before.place? input = none ∧ ∀ place, after.place? input = some place →
      ∀ below content, before.kindAt? (place ++ below) ≠ some (.file content)

namespace Artifact

section Stored

variable {before after grown : FileTree} {output : Path} {content : ByteArray} {directory : Place}
  {name : FileName}

/-- Elsewhere the files are those that were there. -/
theorem Stored.file_iff (h : Stored before output content after grown directory name)
    {place : Place} (elsewhere : place ≠ directory ++ [name]) (held : ByteArray) :
    after.kindAt? place = some (.file held) ↔ before.kindAt? place = some (.file held) := by
  rw [h.overwrites.kind_other place elsewhere]
  constructor
  · intro found
    rcases h.grows.kinds place with same | ⟨-, made⟩
    · rw [← same, found]
    · rw [made] at found
      exact absurd found (by simp)
  · exact fun found => h.grows.extends.kept place _ found

/-- A path that leads to another file than the one written is that of a link if it was. -/
theorem Stored.isLink_eq (h : Stored before output content after grown directory name)
    {path : Path} {place : Place} {held : ByteArray} (elsewhere : place ≠ directory ++ [name])
    (isFile : before.kindAt? place = some (.file held)) (was : before.Finds .read path place)
    (is : after.Finds .read path place) : after.isLink path = before.isLink path := by
  -- The tree between the two settles where an inspecting walk stops.
  have inspected : after.Finds .inspect path place ↔ before.Finds .inspect path place := by
    constructor
    · intro direct
      have between := direct.of_overwrites h.overwrites elsewhere
      rcases was.2.inspect with direct | ⟨stop, link, stopped, isLink⟩
      · exact ⟨was.1, direct⟩
      · have stopped : before.Finds .inspect path stop := ⟨was.1, stopped⟩
        obtain rfl := (stopped.extends h.grows.extends).unique (by decide) between
        exact stopped
    · intro direct
      have between := direct.extends h.grows.extends
      rcases is.2.inspect with direct | ⟨stop, link, stopped, isLink⟩
      · exact ⟨is.1, direct⟩
      · have stopped : after.Finds .inspect path stop := ⟨is.1, stopped⟩
        have apart : stop ≠ directory ++ [name] := by
          rintro rfl
          rw [h.overwrites.kind_written] at isLink
          exact absurd isLink (by simp)
        obtain rfl := (stopped.of_overwrites h.overwrites apart).unique (by decide) between
        exact stopped
  have noLink := isLink_eq_false_iff was isFile
  have noLink' := isLink_eq_false_iff is ((h.file_iff elsewhere held).2 isFile)
  rw [inspected, ← noLink] at noLink'
  exact Bool.eq_iff_iff.2 (by rw [← Bool.not_eq_false, ← Bool.not_eq_false, noLink'])

/-- The files below the input are those that were there, but for the place that has been written. -/
theorem Stored.filter_filePlaces (h : Stored before output content after grown directory name)
    (wellFormed : before.WellFormed) {input : Path} {place : Place}
    (was : before.Finds .read input place) (is : after.Finds .read input place) :
    (after.filePlaces input).filter (fun below => place ++ below != directory ++ [name]) =
      (before.filePlaces input).filter fun below => place ++ below != directory ++ [name] := by
  refine FileEntry.eq_of_sorted ((sorted_filePlaces h.wellFormed is).filter _)
    ((sorted_filePlaces wellFormed was).filter _) ?_
  intro below
  simp only [List.mem_filter, bne_iff_ne, and_congr_left_iff]
  intro elsewhere
  rw [mem_filePlaces h.wellFormed is, mem_filePlaces wellFormed was]
  simp only [h.file_iff elsewhere]
  refine and_congr_right ?_
  rintro ⟨held, isFile⟩
  refine forall_congr' fun here => ?_
  rw [here, List.append_nil] at elsewhere isFile
  rw [h.isLink_eq elsewhere isFile was is]

end Stored

/-- **In a tree that keeps its links nothing is disturbed**, if the input leads somewhere and no
document is the file that has been written. -/
theorem Stored.undisturbed {before after grown : FileTree} {input output : Path}
    {content : ByteArray} {directory : Place} {name : FileName}
    (h : Stored before output content after grown directory name)
    (links : ∀ place link, before.kindAt? place = some (.link link) →
      after.kindAt? place = some (.link link))
    (there : before.place? input ≠ none)
    (documents : ∀ path ∈ before.discover input, before.place? path ≠ after.place? output) :
    Undisturbed before after input output := by
  have noLink : ∀ link, grown.kindAt? (directory ++ [name]) ≠ some (.link link) := by
    intro link isLink
    rcases h.grows.kinds (directory ++ [name]) with same | ⟨-, made⟩
    · have kept := links _ link (same ▸ isLink)
      rw [h.overwrites.kind_written] at kept
      exact absurd kept (by simp)
    · rw [made] at isLink
      exact absurd isLink (by simp)
  refine ⟨documents, h.directory_kept noLink, Or.inl ?_⟩
  obtain ⟨place, leads⟩ := Option.ne_none_iff_exists'.1 there
  have found := (place?_eq_some_iff.1 leads).extends h.grows.extends
  rw [leads, place?_eq_some_iff]
  exact found.overwritten h.overwrites noLink

/-- **Storing a stylesheet leaves the documents that contribute as they were**, if it does not
disturb what the input and the output lead to. -/
theorem survivors_after_write {before after grown : FileTree} {input output : Path}
    {directory : Place} {name : FileName} {tokens : TokenMap} (mode : CollectMode)
    (wellFormed : before.WellFormed)
    (h : Stored before output (TokenMap.stylesheet tokens).toUTF8 after grown directory name)
    (undisturbed : Undisturbed before after input output) :
    Compilation.survivors mode (after.documents input) =
      Compilation.survivors mode (before.documents input) := by
  have written := place?_eq_some_iff.2 (h.finds undisturbed.output)
  -- What has been written contributes nothing.
  have silent : ∀ {place below : Place}, after.Finds .read input place →
      below ∈ after.filePlaces input → place ++ below = directory ++ [name] →
        contribution mode after input below = none := by
    intro place below found member there
    obtain ⟨content, isFile, finds⟩ := finds_of_mem_filePlaces h.wellFormed found member
    rw [there] at finds
    exact contribution_of_stylesheet (readFile_of_finds finds h.overwrites.kind_written)
  rcases undisturbed.input with same | ⟨lost, bare⟩
  · cases leads : before.place? input with
    | none =>
        rw [survivors_documents, survivors_documents, filePlaces_of_lost leads,
          filePlaces_of_lost (same.trans leads)]
        rfl
    | some place =>
        have was := place?_eq_some_iff.1 leads
        have is := place?_eq_some_iff.1 (same.trans leads)
        refine survivors_congr (h.filter_filePlaces wellFormed was is) ?_ ?_ ?_
        · -- No document was where the stylesheet is.
          intro below member there
          obtain ⟨held, -, finds⟩ := finds_of_mem_filePlaces wellFormed was member
          rw [contribution]
          split
          · next isDocument =>
              have discovered : input.appendAll below ∈ before.discover input := by
                rw [discover, filesAt_eq]
                exact List.mem_filter.2 ⟨List.mem_map_of_mem member, isDocument⟩
              refine absurd ?_ (undisturbed.documents _ discovered)
              rw [written, place?_eq_some_iff.2 finds]
              simpa using there
          · rfl
        · intro below member there
          exact silent is member (by simpa using there)
        · intro below member apart
          obtain ⟨held, isFile, finds⟩ := finds_of_mem_filePlaces wellFormed was member
          have isFile' := (h.file_iff (by simpa using apart) held).2 isFile
          have names := (h.wellFormed.names.of_at? (at?_of_kindAt?_file isFile')).1
          have finds' := finds_appendAll is
            (fun name member => names name (List.mem_append_right place member)) isFile'
          exact contribution_congr
            ((readFile_of_finds finds' isFile').trans (readFile_of_finds finds isFile).symm)
  · rw [survivors_documents, survivors_documents, filePlaces_of_lost lost]
    cases leads : after.place? input with
    | none =>
        rw [filePlaces_of_lost leads]
        rfl
    | some place =>
        have is := place?_eq_some_iff.1 leads
        rw [List.filterMap_nil, List.filterMap_eq_nil_iff]
        intro below member
        obtain ⟨content, isFile, -⟩ := finds_of_mem_filePlaces h.wellFormed is member
        by_cases there : place ++ below = directory ++ [name]
        · exact silent is member there
        · exact absurd ((h.file_iff there content).1 isFile) (bare place leads below content)

end Artifact

end DesignTokens
