import DesignTokens.Loading
import DesignTokens.Proofs.Compilation.Survivors
import DesignTokens.Proofs.FileTree.Changes

/-!
# The documents of a file tree

The documents below a path, by the places they stand at. The files below a path are those of the
place that the path leads to (`mem_filePlaces`), and the path of each of them leads to it
(`finds_of_mem_filePlaces`). So the documents that contribute to a compilation are those of the
places in their order, one by one (`survivors_documents`), and two trees have the same if they differ
in files only that contribute nothing (`survivors_congr`). A stylesheet is no document, wherever it
stands (`contribution_of_stylesheet`).
-/

set_option autoImplicit false

namespace DesignTokens

namespace FileTree

/-! ## Files below a path -/

/-- The places of the regular files at and below a path, seen from the path. -/
def filePlaces (tree : FileTree) (root : Path) : List Place :=
  match tree.entry? root with
  | .error _ => []
  | .ok entry => if entry.isFile && tree.isLink root then [] else entry.files

theorem filesAt_eq (tree : FileTree) (root : Path) :
    tree.filesAt root = (tree.filePlaces root).map root.appendAll := by
  rw [filesAt, filePlaces]
  cases tree.entry? root with
  | error e => rfl
  | ok entry =>
      dsimp only
      split <;> rfl

/-- A path to a file is the only one there, if it is that of a document and of no link. -/
theorem discover_of_file {tree : FileTree} {path : Path} {place : Place} {content : ByteArray}
    (found : tree.Finds .read path place) (isFile : tree.kindAt? place = some (.file content)) :
    tree.discover path = if path.isDocument && !tree.isLink path then [path] else [] := by
  have looked := entry?_eq_ok_iff.2 ⟨place, found, at?_of_kindAt?_file isFile⟩
  have here : (FileEntry.file content).files.map path.appendAll = [path] := by
    rw [FileEntry.files, FileEntry.leaves]
    rfl
  simp only [discover, filesAt, looked, here]
  cases tree.isLink path <;> cases isDocument : path.isDocument <;>
    simp [FileEntry.isFile, isDocument]

/-- Nothing is below a path that leads nowhere. -/
theorem filePlaces_of_lost {tree : FileTree} {root : Path} (lost : tree.place? root = none) :
    tree.filePlaces root = [] := by
  rw [filePlaces]
  cases isEntry : tree.entry? root with
  | error e => rfl
  | ok entry =>
      obtain ⟨place, found, -⟩ := entry?_eq_ok_iff.1 isEntry
      rw [place?_eq_some_iff.2 found] at lost
      exact absurd lost (by simp)

section Found

variable {tree : FileTree} {root : Path} {place : Place}

/-- **The files below a path are those below the place it leads to**, but for a link to a file. -/
theorem mem_filePlaces (wellFormed : tree.WellFormed) (found : tree.Finds .read root place)
    (below : Place) :
    below ∈ tree.filePlaces root ↔
      (∃ content, tree.kindAt? (place ++ below) = some (.file content)) ∧
        (below = [] → tree.isLink root = false) := by
  obtain ⟨entry, looked, isEntry⟩ := lookup_of_finds (by decide) found
  have wellNamed := (wellFormed.names.of_at? isEntry).2
  have kinds : tree.kindAt? (place ++ below) = entry.kindAt? below := by
    rw [kindAt?_eq, at?, FileEntry.at?_append, ← at?, isEntry]
    rfl
  rw [filePlaces, entry?_eq_ok_iff.2 ⟨place, found, isEntry⟩, kinds]
  dsimp only
  cases isFile : entry.isFile with
  | false =>
      rw [Bool.false_and, if_neg Bool.false_ne_true, FileEntry.mem_files wellNamed]
      refine ⟨fun held => ⟨held, fun here => ?_⟩, And.left⟩
      -- At its own place the entry is no file.
      obtain ⟨content, held⟩ := held
      rw [here, FileEntry.kindAt?_nil, Option.some.injEq] at held
      cases entry with
      | file content => exact absurd isFile (by simp [FileEntry.isFile])
      | link target => exact absurd held (by simp [FileEntry.kind])
      | directory entries => exact absurd held (by simp [FileEntry.kind])
  | true =>
      obtain ⟨content, rfl⟩ : ∃ content, entry = .file content := by
        cases entry with
        | file content => exact ⟨content, rfl⟩
        | link target => exact absurd isFile (by simp [FileEntry.isFile])
        | directory entries => exact absurd isFile (by simp [FileEntry.isFile])
      rw [Bool.true_and]
      cases linked : tree.isLink root with
      | false => simp [FileEntry.mem_files wellNamed]
      | true =>
          -- Nothing is below a file.
          cases below with
          | nil => simp
          | cons name rest =>
              have nothing : (FileEntry.file content).entries = [] := rfl
              simp [FileEntry.kindAt?_of_bare nothing]

theorem sorted_filePlaces (wellFormed : tree.WellFormed) (found : tree.Finds .read root place) :
    (tree.filePlaces root).Pairwise (· < ·) := by
  obtain ⟨entry, looked, isEntry⟩ := lookup_of_finds (by decide) found
  rw [filePlaces, entry?_eq_ok_iff.2 ⟨place, found, isEntry⟩]
  dsimp only
  split
  · exact .nil
  · exact FileEntry.sorted_files (wellFormed.names.of_at? isEntry).2

/-- The path of a file below a path leads to the file. -/
theorem finds_of_mem_filePlaces (wellFormed : tree.WellFormed)
    (found : tree.Finds .read root place) {below : Place} (member : below ∈ tree.filePlaces root) :
    ∃ content, tree.kindAt? (place ++ below) = some (.file content) ∧
      tree.Finds .read (root.appendAll below) (place ++ below) := by
  obtain ⟨⟨content, isFile⟩, -⟩ := (mem_filePlaces wellFormed found below).1 member
  refine ⟨content, isFile, finds_appendAll found ?_ isFile⟩
  have names := (wellFormed.names.of_at? (at?_of_kindAt?_file isFile)).1
  exact fun name member => names name (List.mem_append_right place member)

end Found

/-! ## Documents -/

/-- The document at a place below a path, if it is one and contributes to a compilation. -/
def contribution (mode : CollectMode) (tree : FileTree) (root : Path) (below : Place) :
    Option Document :=
  if (root.appendAll below).isDocument then
    Compilation.accepted? mode (Document.loadResult tree (root.appendAll below))
  else none

/-- **The documents that contribute are those of the files below the path, one by one.** -/
theorem survivors_documents (mode : CollectMode) (tree : FileTree) (root : Path) :
    Compilation.survivors mode (tree.documents root) =
      (tree.filePlaces root).filterMap (contribution mode tree root) := by
  rw [Compilation.survivors, documents, discover, filesAt_eq, List.filter_map, List.map_map,
    List.filterMap_map, List.filterMap_filter]
  rfl

/-- A file with the same content contributes the same. -/
theorem contribution_congr {mode : CollectMode} {first second : FileTree} {root : Path}
    {below : Place}
    (same : first.readFile (root.appendAll below) = second.readFile (root.appendAll below)) :
    contribution mode first root below = contribution mode second root below := by
  rw [contribution, contribution, Document.loadResult, Document.loadResult, Document.load,
    Document.load, same]

/-- A document whose file holds no JSON text contributes nothing. -/
theorem contribution_of_refused {mode : CollectMode} {tree : FileTree} {root : Path}
    {below : Place} {content : ByteArray} {e : JsonError}
    (holds : tree.readFile (root.appendAll below) = .ok content)
    (refused : Json.read content = .error e) : contribution mode tree root below = none := by
  rw [contribution, Document.loadResult, Document.load, holds]
  simp only [Document.parse, refused]
  split <;> rfl

/-- Parts without a value may be left out. -/
theorem filterMap_filter_of_none {α β : Type} {f : α → Option β} {p : α → Bool} {l : List α}
    (silent : ∀ a ∈ l, p a = false → f a = none) : (l.filter p).filterMap f = l.filterMap f := by
  rw [List.filterMap_filter]
  refine List.filterMap_congr fun a member => ?_
  cases kept : p a with
  | true => rfl
  | false => exact (silent a member kept).symm

/-- **The same documents contribute** if the files are the same, but for some that contribute nothing in
either tree, and the others contribute the same. -/
theorem survivors_congr {before after : FileTree} {root : Path} {mode : CollectMode}
    {isKept : Place → Bool}
    (files : (after.filePlaces root).filter isKept = (before.filePlaces root).filter isKept)
    (silent : ∀ below ∈ before.filePlaces root, isKept below = false →
      contribution mode before root below = none)
    (silent' : ∀ below ∈ after.filePlaces root, isKept below = false →
      contribution mode after root below = none)
    (same : ∀ below ∈ before.filePlaces root, isKept below = true →
      contribution mode after root below = contribution mode before root below) :
    Compilation.survivors mode (after.documents root) =
      Compilation.survivors mode (before.documents root) := by
  have kept : ∀ below ∈ (before.filePlaces root).filter isKept,
      contribution mode after root below = contribution mode before root below := by
    intro below member
    obtain ⟨member, isKept⟩ := List.mem_filter.1 member
    exact same below member isKept
  rw [survivors_documents, survivors_documents]
  calc (after.filePlaces root).filterMap (contribution mode after root)
      = ((after.filePlaces root).filter isKept).filterMap (contribution mode after root) :=
        (filterMap_filter_of_none silent').symm
    _ = ((before.filePlaces root).filter isKept).filterMap (contribution mode before root) := by
        rw [files]
        exact List.filterMap_congr kept
    _ = (before.filePlaces root).filterMap (contribution mode before root) :=
        filterMap_filter_of_none silent

end FileTree

/-! ## Stylesheets among documents -/

/-- A stylesheet is no JSON text: it starts with a colon. -/
theorem read_stylesheet (tokens : TokenMap) :
    ∃ e, Json.read (TokenMap.stylesheet tokens).toUTF8 = .error e := by
  obtain ⟨rest, octets⟩ :
      ∃ rest, (TokenMap.stylesheet tokens).toUTF8.data.toList = 0x3A :: rest := by
    obtain ⟨more, text⟩ : ∃ more, TokenMap.stylesheet tokens = String.ofList (':' :: more) :=
      ⟨_, rfl⟩
    rw [text]
    refine ⟨more.flatMap String.utf8EncodeChar, ?_⟩
    show (List.utf8Encode (':' :: more)).data.toList = _
    rw [List.utf8Encode, List.data_toByteArray]
    rfl
  have refused : JsonReader.run Json.maxDepth (0x3A :: rest).length
      (JsonToken.readAll (0x3A :: rest)) = .error ⟨.expectedValue, 1, 0⟩ := rfl
  refine ⟨JsonFlaw.locate ⟨.expectedValue, 1, 0⟩ (0x3A :: rest), ?_⟩
  rw [Json.read, Json.readRaw, octets, refused]
  rfl

namespace FileTree

/-- A document whose file holds a stylesheet contributes nothing. -/
theorem contribution_of_stylesheet {mode : CollectMode} {tree : FileTree} {root : Path}
    {below : Place} {tokens : TokenMap}
    (holds : tree.readFile (root.appendAll below) = .ok (TokenMap.stylesheet tokens).toUTF8) :
    contribution mode tree root below = none := by
  obtain ⟨e, refused⟩ := read_stylesheet tokens
  exact contribution_of_refused holds refused

end FileTree

end DesignTokens
