import DesignTokens.Proofs.FileTree.Removal
import DesignTokens.Proofs.FileTree.Visits
import DesignTokens.Proofs.Loading.Documents
import DesignTokens.Proofs.Path.DocumentNames

/-!
# What is discovered

Below a directory exactly the regular files with the name of a document are discovered, each once and
in the order of the octets of their names, directory by directory, whoever walks the directory
(`discovery_is_exact`). A name that is no text is not that of a document
(`json_files_and_documents_differ`). So the documents are the same for every listing of a tree
(`Relists.documents_eq`), and a document that holds no JSON text has no more effect than one that has
been removed (`survivors_beside_refused`).
-/

set_option autoImplicit false

namespace DesignTokens

namespace FileTree

/-! ## Places of documents -/

/-- The places of the token documents at and below a path, seen from the path. -/
def documentPlaces (tree : FileTree) (root : Path) : List Place :=
  (tree.filePlaces root).filter fun below => (root.appendAll below).isDocument

theorem discover_eq (tree : FileTree) (root : Path) :
    tree.discover root = (tree.documentPlaces root).map root.appendAll := by
  rw [discover, filesAt_eq, List.filter_map]
  rfl

/-- A document that is discovered is a file, and its path leads to it. -/
theorem exists_of_mem_discover {tree : FileTree} (wellFormed : tree.WellFormed) {root path : Path}
    (member : path ∈ tree.discover root) :
    ∃ place content, tree.Finds .read path place ∧
      tree.kindAt? place = some (.file content) := by
  rw [discover_eq] at member
  obtain ⟨below, isDocument, rfl⟩ := List.mem_map.1 member
  have isFile := (List.mem_filter.1 isDocument).1
  cases leads : tree.place? root with
  | none =>
      rw [filePlaces_of_lost leads] at isFile
      exact absurd isFile List.not_mem_nil
  | some place =>
      obtain ⟨content, stands, finds⟩ :=
        finds_of_mem_filePlaces wellFormed (place?_eq_some_iff.1 leads) isFile
      exact ⟨_, content, finds, stands⟩

section Directory

variable {tree : FileTree} {root : Path} {place : Place}

/-- A directory is no file itself. -/
theorem ne_nil_of_file_below (isDirectory : tree.kindAt? place = some .directory) {below : Place}
    {content : ByteArray} (isFile : tree.kindAt? (place ++ below) = some (.file content)) :
    below ≠ [] := by
  rintro rfl
  rw [List.append_nil, isDirectory] at isFile
  exact absurd isFile (by simp)

/-- The files below a directory. -/
theorem mem_filePlaces_of_directory (wellFormed : tree.WellFormed)
    (found : tree.Finds .read root place) (isDirectory : tree.kindAt? place = some .directory)
    (below : Place) :
    below ∈ tree.filePlaces root ↔
      ∃ content, tree.kindAt? (place ++ below) = some (.file content) := by
  rw [mem_filePlaces wellFormed found]
  refine ⟨And.left, fun ⟨content, isFile⟩ => ⟨⟨content, isFile⟩, fun here => ?_⟩⟩
  exact absurd here (ne_nil_of_file_below isDirectory isFile)

/-- **The documents below a directory** are the files below it whose own name is that of a document. -/
theorem mem_documentPlaces (wellFormed : tree.WellFormed) (found : tree.Finds .read root place)
    (isDirectory : tree.kindAt? place = some .directory) (below : Place) :
    below ∈ tree.documentPlaces root ↔
      ∃ directories name content, below = directories ++ [name] ∧
        tree.kindAt? (place ++ below) = some (.file content) ∧ Path.isDocumentName name = true := by
  rw [documentPlaces, List.mem_filter, mem_filePlaces_of_directory wellFormed found isDirectory]
  have byName : ∀ {directories : Place} {name : FileName} {content : ByteArray},
      tree.kindAt? (place ++ (directories ++ [name])) = some (.file content) →
        (root.appendAll (directories ++ [name])).isDocument = Path.isDocumentName name := by
    intro directories name content isFile
    have names := (wellFormed.names.of_at? (at?_of_kindAt?_file isFile)).1
    exact Path.isDocument_appendAll found.1 fun part member =>
      names part (List.mem_append_right place member)
  constructor
  · rintro ⟨⟨content, isFile⟩, isDocument⟩
    obtain ⟨directories, name, rfl⟩ :=
      (List.eq_nil_or_concat' below).resolve_left (ne_nil_of_file_below isDirectory isFile)
    exact ⟨directories, name, content, rfl, isFile, by rwa [← byName isFile]⟩
  · rintro ⟨directories, name, content, rfl, isFile, isDocument⟩
    exact ⟨⟨content, isFile⟩, by rwa [byName isFile]⟩

theorem sorted_documentPlaces (wellFormed : tree.WellFormed)
    (found : tree.Finds .read root place) : (tree.documentPlaces root).Pairwise (· < ·) :=
  (sorted_filePlaces wellFormed found).filter _

/-- No document is discovered twice. -/
theorem nodup_discover (wellFormed : tree.WellFormed) (found : tree.Finds .read root place)
    (isDirectory : tree.kindAt? place = some .directory) : (tree.discover root).Nodup := by
  have names : ∀ below ∈ tree.documentPlaces root, ∀ name ∈ below, IsName name := by
    intro below member name isPart
    obtain ⟨-, -, content, -, isFile, -⟩ :=
      (mem_documentPlaces wellFormed found isDirectory below).1 member
    exact (wellFormed.names.of_at? (at?_of_kindAt?_file isFile)).1 name
      (List.mem_append_right place isPart)
  rw [discover_eq, List.nodup_map_iff_inj_on]
  · intro first member second member' same
    exact (Path.appendAll_inj found.1 (names first member) (names second member')).1 same
  · refine (sorted_documentPlaces wellFormed found).imp ?_
    rintro below _ less rfl
    exact List.lt_irrefl _ less

/-- **Whatever walks below a directory discovers the same documents in the same order.** -/
theorem discover_of_visits (wellFormed : tree.WellFormed) (found : tree.Finds .read root place)
    {entries : List (FileName × FileEntry)} (isEntry : tree.at? place = some (.directory entries))
    {visited : List Place} (visits : (FileEntry.directory entries).Visits visited) :
    tree.discover root =
      ((visited.filter fun below => (tree.at? (place ++ below)).any FileEntry.isFile).map
        root.appendAll).filter Path.isDocument := by
  have within : ∀ below, tree.at? (place ++ below) = (FileEntry.directory entries).at? below := by
    intro below
    rw [at?, FileEntry.at?_append, ← at?, isEntry]
    rfl
  have files := FileEntry.files_of_visits visits (wellFormed.names.of_at? isEntry).2
  simp only [within, files, discover, filesAt, entry?_eq_ok_iff.2 ⟨place, found, isEntry⟩]
  rfl

end Directory

/-! ## Listings of a tree -/

/-- The second tree is the first one in another listing. -/
structure Relists (first second : FileTree) : Prop where
  root : first.root.Relists second.root
  working : second.working = first.working

section Listing

variable {first second : FileTree}

theorem Relists.kindAt?_eq (h : first.Relists second) (wellFormed : first.WellFormed)
    (place : Place) : second.kindAt? place = first.kindAt? place :=
  h.root.kindAt?_eq wellFormed.names place

theorem Relists.wellFormed (h : first.Relists second) (wellFormed : first.WellFormed) :
    second.WellFormed := by
  refine ⟨h.root.wellNamed wellFormed.names, ?_⟩
  rw [h.working, h.kindAt?_eq wellFormed]
  exact wellFormed.working

/-- Paths lead to the same places in another listing. -/
theorem Relists.finds_iff (h : first.Relists second) (wellFormed : first.WellFormed)
    {purpose : Purpose} {path : Path} {place : Place} :
    second.Finds purpose path place ↔ first.Finds purpose path place := by
  have same := h.kindAt?_eq wellFormed
  constructor
  · exact fun found => found.extends ⟨h.working.symm, fun _ _ stands => (same _).symm.trans stands⟩
  · exact fun found => found.extends ⟨h.working, fun _ _ stands => (same _).trans stands⟩

theorem Relists.filePlaces_eq (h : first.Relists second) (wellFormed : first.WellFormed)
    (root : Path) : second.filePlaces root = first.filePlaces root := by
  have wellFormed' := h.wellFormed wellFormed
  cases leads : first.place? root with
  | none =>
      have lost : second.place? root = none := by
        rw [Option.eq_none_iff_forall_ne_some] at leads ⊢
        intro place found
        exact leads place
          (place?_eq_some_iff.2 ((h.finds_iff wellFormed).1 (place?_eq_some_iff.1 found)))
      rw [filePlaces_of_lost leads, filePlaces_of_lost lost]
  | some place =>
      have found := place?_eq_some_iff.1 leads
      have found' := (h.finds_iff wellFormed).2 found
      have linked : second.isLink root = first.isLink root := by
        rw [Bool.eq_iff_iff, isLink_iff, isLink_iff]
        simp only [h.finds_iff wellFormed, h.kindAt?_eq wellFormed]
      refine FileEntry.eq_of_sorted (sorted_filePlaces wellFormed' found')
        (sorted_filePlaces wellFormed found) fun below => ?_
      rw [mem_filePlaces wellFormed' found', mem_filePlaces wellFormed found, linked]
      simp only [h.kindAt?_eq wellFormed]

theorem Relists.discover_eq (h : first.Relists second) (wellFormed : first.WellFormed)
    (root : Path) : second.discover root = first.discover root := by
  rw [discover, discover, filesAt_eq, filesAt_eq, h.filePlaces_eq wellFormed]

/-- **The documents of a tree do not depend on its listing.** -/
theorem Relists.documents_eq (h : first.Relists second) (wellFormed : first.WellFormed)
    (root : Path) : second.documents root = first.documents root := by
  rw [documents, documents, h.discover_eq wellFormed]
  refine List.map_congr_left fun path member => ?_
  obtain ⟨place, content, found, isFile⟩ := exists_of_mem_discover wellFormed member
  have found' := (h.finds_iff wellFormed).2 found
  have isFile' := (h.kindAt?_eq wellFormed place).trans isFile
  rw [Document.loadResult, Document.loadResult, Document.load, Document.load,
    readFile_of_finds found isFile, readFile_of_finds found' isFile']

end Listing

/-! ## Documents that are no JSON texts -/

/-- **A new file that holds no JSON text adds nothing** to the documents that contribute. -/
theorem survivors_beside_refused {before after : FileTree} {root : Path} {place written : Place}
    {content : ByteArray} {e : JsonError} (mode : CollectMode) (wellFormed : before.WellFormed)
    (wellFormed' : after.WellFormed) (found : before.Finds .read root place)
    (isDirectory : before.kindAt? place = some .directory)
    (free : before.kindAt? written = none) (h : before.Overwrites after written content)
    (refused : Json.read content = .error e) :
    Compilation.survivors mode (after.documents root) =
      Compilation.survivors mode (before.documents root) := by
  have grown := h.extends (Or.inl free)
  have found' := found.extends grown
  have isDirectory' := grown.kept _ _ isDirectory
  refine @survivors_congr _ _ root mode (fun below => place ++ below != written) ?_ ?_ ?_ ?_
  · refine FileEntry.eq_of_sorted ((sorted_filePlaces wellFormed' found').filter _)
      ((sorted_filePlaces wellFormed found).filter _) fun below => ?_
    rw [List.mem_filter, List.mem_filter, bne_iff_ne]
    refine and_congr_left fun apart => ?_
    rw [mem_filePlaces_of_directory wellFormed' found' isDirectory',
      mem_filePlaces_of_directory wellFormed found isDirectory, h.kind_other _ apart]
  · intro below member there
    obtain ⟨held, isFile⟩ := (mem_filePlaces_of_directory wellFormed found isDirectory below).1 member
    obtain rfl : place ++ below = written := by simpa using there
    rw [free] at isFile
    exact absurd isFile (by simp)
  · intro below member there
    obtain ⟨held, isFile, finds⟩ := finds_of_mem_filePlaces wellFormed' found' member
    obtain rfl : place ++ below = written := by simpa using there
    exact contribution_of_refused (readFile_of_finds finds h.kind_written) refused
  · intro below member _
    obtain ⟨held, isFile, finds⟩ := finds_of_mem_filePlaces wellFormed found member
    exact contribution_congr ((readFile_of_finds (finds.extends grown)
      (grown.kept _ _ isFile)).trans (readFile_of_finds finds isFile).symm)

/-- Replaced by what is no JSON text, a document has no more effect than if it is removed. -/
theorem refused_as_removed {tree : FileTree} {root path : Path} {place : Place}
    (wellFormed : tree.WellFormed) (found : tree.Finds .read root place)
    (isDirectory : tree.kindAt? place = some .directory) (member : path ∈ tree.discover root)
    {content : ByteArray} {e : JsonError} (refused : Json.read content = .error e) :
    ∃ replaced removed, tree.writeFile path content = .ok replaced ∧
      tree.removeFile path = .ok removed ∧ ∀ mode,
        Compilation.survivors mode (replaced.documents root) =
          Compilation.survivors mode (removed.documents root) := by
  rw [discover_eq] at member
  obtain ⟨_, isDocument, rfl⟩ := List.mem_map.1 member
  obtain ⟨directories, name, held, rfl, isFile, -⟩ :=
    (mem_documentPlaces wellFormed found isDirectory _).1 isDocument
  have names := (wellFormed.names.of_at? (at?_of_kindAt?_file isFile)).1
  have below : ∀ part ∈ directories ++ [name], IsName part :=
    fun part member => names part (List.mem_append_right place member)
  have finds := finds_appendAll found below isFile
  have inspects := inspects_appendAll found (by simp) below isFile
  refine ⟨_, _, writeFile_of_finds wellFormed finds isFile content,
    removeFile_of_finds inspects isFile, fun mode => ?_⟩
  have elsewhere : place ≠ place ++ (directories ++ [name]) := by simp
  rw [← List.append_assoc] at isFile elsewhere ⊢
  obtain ⟨free, removed⟩ := overwrites_removed isFile
  exact survivors_beside_refused mode (wellFormed.erase isFile) (wellFormed.replace isFile content)
    (found.of_overwrites removed elsewhere) ((removed.kind_other _ elsewhere).symm.trans isDirectory)
    free (overwrites_replaced isFile content) refused

end FileTree

/-! ## Discovery -/

open FileTree

/-- **What is discovered below a directory**: exactly the regular files there, in directories of any
name and at any depth, whose name is a UTF-8 text that ends in `.json`, is more than that and does not
start with `$`, each once and strictly increasing in the order of the octets of the names on the way
to them. Every walk that visits all there is depth first, sorted by the octets of the names, comes to
the same. So another listing of the tree has the same documents and compiles to the same, and a
document that is replaced by what is no JSON text compiles to the stylesheet that is left when it is
removed. At a path to a file there is that file alone, if it is a document and no link. -/
theorem discovery_is_exact {tree : FileTree} {root : Path} {place : Place}
    (wellFormed : tree.WellFormed) (leads : tree.place? root = some place)
    (isDirectory : tree.kindAt? place = some .directory) :
    (∃ places : List Place, tree.discover root = places.map root.appendAll ∧
      (∀ below, below ∈ places ↔ ∃ directories text content,
        below = directories ++ [Utf8.octets text] ∧
        tree.kindAt? (place ++ below) = some (.file content) ∧
        ".json".toList <:+ text.toList ∧ text ≠ ".json" ∧ ¬ "$".toList <+: text.toList) ∧
      places.Pairwise fun first second => first < second) ∧
    (tree.discover root).Nodup ∧
    (∃ entry, tree.at? place = some entry ∧ (∃ visited, entry.Visits visited) ∧
      ∀ visited, entry.Visits visited → tree.discover root =
        ((visited.filter fun below => (tree.at? (place ++ below)).any FileEntry.isFile).map
          root.appendAll).filter Path.isDocument) ∧
    (∀ other, tree.Relists other → other.discover root = tree.discover root ∧
      other.documents root = tree.documents root ∧
      ∀ options, compileDirectory options other root = compileDirectory options tree root) ∧
    (∀ path ∈ tree.discover root, ∀ content e, Json.read content = .error e →
      ∃ replaced removed, tree.writeFile path content = .ok replaced ∧
        tree.removeFile path = .ok removed ∧ ∀ options,
          (compileDirectory options replaced root).css =
            (compileDirectory options removed root).css) ∧
    ∀ path filePlace content, tree.place? path = some filePlace →
      tree.kindAt? filePlace = some (.file content) →
      tree.discover path = if path.isDocument && !tree.isLink path then [path] else [] := by
  have found := place?_eq_some_iff.1 leads
  refine ⟨⟨tree.documentPlaces root, discover_eq tree root, ?_,
    sorted_documentPlaces wellFormed found⟩, nodup_discover wellFormed found isDirectory,
    ?_, ?_, ?_, fun _ _ _ found isFile => discover_of_file (place?_eq_some_iff.1 found) isFile⟩
  · intro below
    rw [mem_documentPlaces wellFormed found isDirectory]
    simp only [Path.isDocumentName_iff]
    constructor
    · rintro ⟨directories, _, content, cut, isFile, text, rfl, named⟩
      exact ⟨directories, text, content, cut, isFile, named⟩
    · rintro ⟨directories, text, content, cut, isFile, named⟩
      exact ⟨directories, _, content, cut, isFile, text, rfl, named⟩
  · obtain ⟨entries, isEntry⟩ := at?_of_kindAt?_directory isDirectory
    exact ⟨_, isEntry, (wellFormed.names.of_at? isEntry).2.exists_visits,
      fun visited visits => discover_of_visits wellFormed found isEntry visits⟩
  · intro other relists
    have documents := relists.documents_eq wellFormed root
    refine ⟨relists.discover_eq wellFormed root, documents, fun options => ?_⟩
    rw [compileDirectory, compileDirectory, documents]
  · intro path member content e refused
    obtain ⟨replaced, removed, written, cleared, same⟩ :=
      refused_as_removed wellFormed found isDirectory member refused
    exact ⟨replaced, removed, written, cleared,
      fun options => Compilation.css_compile_congr (same options.mode)⟩

/-- A document without tokens. -/
def noTokens : FileEntry := .file "\x7b\x7d".toUTF8

/-- A name that is no text. -/
def strayOctet : FileName := [0xFF]

/-- A directory of names that begin alike, listed from the last one to the first. -/
def alikeNames : FileEntry :=
  .directory [(strayOctet ++ Utf8.octets ".json", noTokens),
    (strayOctet, .directory [("b.json", noTokens)]), ("a.json", noTokens), ("a-b.json", noTokens),
    ("a", .directory [("b.json", noTokens)]), (".json", noTokens), ("$a.json", noTokens)]

/-- A tree with that directory. -/
def alikeDocuments : FileTree := ⟨.directory [("d", alikeNames)], []⟩

theorem wellFormed_alikeDocuments : alikeDocuments.WellFormed := by
  have isName : ∀ name ∈ ([strayOctet ++ Utf8.octets ".json", strayOctet, "d", "a.json", "a-b.json",
      "a", ".json", "$a.json", "b.json"] : List FileName), IsName name := by
    intro name member
    refine ⟨?_, ?_, ?_, ?_, ?_⟩ <;> revert name <;> decide +kernel
  have file : noTokens.WellNamed := .file _
  have below : (FileEntry.directory [("b.json", noTokens)]).WellNamed :=
    .directory (by simp) (by simp [isName]) (by simp [file])
  have names : alikeNames.WellNamed :=
    .directory (by decide +kernel) (by simp [isName]) (by simp [file, below])
  exact ⟨.directory (by simp) (by simp [isName]) (by simp [names]), rfl⟩

/-- A walk below that directory. -/
theorem visits_alikeNames :
    alikeNames.Visits
      [[], ["$a.json"], [".json"], ["a"], ["a", "b.json"], ["a-b.json"], ["a.json"], [strayOctet],
        [strayOctet, "b.json"], [strayOctet ++ Utf8.octets ".json"]] := by
  have file : noTokens.Visits [[]] := .file _
  have below : (FileEntry.directory [("b.json", noTokens)]).Visits [[], ["b.json"]] :=
    @FileEntry.Visits.directory _ _ (fun _ => [[]]) (.refl _) (by simp) (by simp [file])
  refine @FileEntry.Visits.directory _ _
    (fun name => if name = "a" ∨ name = strayOctet then [[], ["b.json"]] else [[]])
    (List.reverse_perm _) ?_ ?_
  · decide +kernel
  · intro part member
    simp only [List.mem_cons, List.not_mem_nil, or_false] at member
    rcases member with rfl | rfl | rfl | rfl | rfl | rfl | rfl
    · exact file
    · exact below
    · exact file
    · exact file
    · exact below
    · exact file
    · exact file

theorem finds_alikeNames : alikeDocuments.Finds .read ⟨"d"⟩ ["d"] :=
  ⟨by decide, .down (by decide) rfl (.here rfl)⟩

/-- The directory `a` comes before the files, because its name ends where theirs go on. -/
theorem discover_alikeNames :
    alikeDocuments.discover ⟨"d"⟩ = [⟨"d/a/b.json"⟩, ⟨"d/a-b.json"⟩, ⟨"d/a.json"⟩,
      ⟨Utf8.octets "d/" ++ strayOctet ++ Utf8.octets "/b.json"⟩] := by
  rw [discover_of_visits wellFormed_alikeDocuments finds_alikeNames rfl visits_alikeNames]
  decide +kernel

/-- A document of that directory may as well be removed as hold no JSON text. -/
theorem discovery_of_alike_names :
    alikeDocuments.WellFormed ∧ alikeDocuments.place? ⟨"d"⟩ = some (["d"] : Place) ∧
      alikeDocuments.kindAt? ["d"] = some .directory ∧
      alikeDocuments.discover ⟨"d"⟩ = [⟨"d/a/b.json"⟩, ⟨"d/a-b.json"⟩, ⟨"d/a.json"⟩,
        ⟨Utf8.octets "d/" ++ strayOctet ++ Utf8.octets "/b.json"⟩] ∧
      ∃ replaced removed, alikeDocuments.writeFile ⟨"d/a.json"⟩ ByteArray.empty = .ok replaced ∧
        alikeDocuments.removeFile ⟨"d/a.json"⟩ = .ok removed ∧ ∀ options,
          (compileDirectory options replaced ⟨"d"⟩).css =
            (compileDirectory options removed ⟨"d"⟩).css := by
  have leads : alikeDocuments.place? ⟨"d"⟩ = some (["d"] : Place) :=
    place?_eq_some_iff.2 finds_alikeNames
  obtain ⟨-, -, -, -, refusals, -⟩ := discovery_is_exact wellFormed_alikeDocuments leads rfl
  obtain ⟨e, refused⟩ : ∃ e, Json.read ByteArray.empty = .error e := ⟨_, rfl⟩
  exact ⟨wellFormed_alikeDocuments, leads, rfl, discover_alikeNames,
    refusals _ (by simp [discover_alikeNames]) _ e refused⟩

/-- A file whose name ends in `.json` may be no document, because its name is no text; and a document
that is not below a path, but at it, is discovered there. -/
theorem json_files_and_documents_differ :
    (alikeDocuments.WellFormed ∧ alikeDocuments.place? ⟨"d"⟩ = some (["d"] : Place) ∧
      ∃ name content, alikeDocuments.kindAt? ["d", name] = some (.file content) ∧
        Utf8.octets ".json" <:+ name ∧ name ≠ Utf8.octets ".json" ∧ ¬ Utf8.octets "$" <+: name ∧
        (Path.ofText "d").append name ∉ alikeDocuments.discover ⟨"d"⟩) ∧
    alikeDocuments.place? ⟨"d/a.json"⟩ = some (["d", "a.json"] : Place) ∧
      (∀ first rest, alikeDocuments.kindAt? ("d" :: "a.json" :: first :: rest) = none) ∧
      alikeDocuments.discover ⟨"d/a.json"⟩ = [⟨"d/a.json"⟩] := by
  have isFile : alikeDocuments.kindAt? ["d", "a.json"] = some (.file "\x7b\x7d".toUTF8) := rfl
  have found : alikeDocuments.Finds .read ⟨"d/a.json"⟩ ["d", "a.json"] :=
    ⟨by decide, .down (by decide) rfl (.file (by decide) isFile)⟩
  refine ⟨⟨wellFormed_alikeDocuments, place?_eq_some_iff.2 finds_alikeNames,
    strayOctet ++ Utf8.octets ".json", _, rfl, List.suffix_append _ _, by decide, by decide, ?_⟩,
    place?_eq_some_iff.2 found, fun _ _ => rfl, ?_⟩
  · rw [discover_alikeNames]
    decide +kernel
  · have unlinked : alikeDocuments.isLink ⟨"d/a.json"⟩ = false :=
      (isLink_eq_false_iff found isFile).2
        ⟨by decide, .down (by decide) rfl (.file (by decide) isFile)⟩
    rw [discover_of_file found isFile, unlinked]
    decide +kernel

end DesignTokens
