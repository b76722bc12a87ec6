import DesignTokens.Command
import DesignTokens.Proofs.Artifact.Undisturbed

/-!
# Building and checking

`check` succeeds exactly if the output holds the stylesheet of the documents that are there now, octet
by octet, and has the digest that is expected (`runCheck_succeeds_iff`). After a build that disturbs
neither its input nor its output, that is so: `check` succeeds, also with the digest that the build
reported, and another build leaves the same octets (`build_then_check`). A build can disturb them:
it replaces a link at its output, and it may be told to write over a document under another
spelling of its path (`check_fails_after_disturbing_build`).
-/

set_option autoImplicit false

namespace DesignTokens

open FileTree

/-- The stylesheet of the documents of a tree. -/
def Settings.stylesheet (settings : Settings) (tree : FileTree) : String :=
  (compileDirectory settings.options tree settings.input).css

/-! ## Checking -/

theorem compare_succeeds_iff {path : Path} {compiled : Compiled}
    {found : Except StorageError (Option String)} :
    (Command.compare path compiled found).succeeds = true ↔ found = .ok (some compiled.css) := by
  unfold Command.compare
  split
  · simp [Response.succeeds, Response.failed]
  · simp [Response.succeeds, Response.failed]
  · next existing =>
      by_cases same : existing = compiled.css
      · simp [same, Response.succeeds, Response.printed]
      · simp [same, Response.succeeds, Response.failed]

/-- A digest is no other one than expected exactly if it is the expected one, if any is. -/
theorem digestMismatch?_eq_none_iff {expected : Option Digest} {actual : Digest} :
    Command.digestMismatch? expected (some actual) = none ↔
      ∀ digest, expected = some digest → digest = actual := by
  cases expected with
  | none => simp [Command.digestMismatch?]
  | some digest => by_cases same : digest = actual <;> simp [Command.digestMismatch?, same]

theorem digest_compileDirectory (settings : Settings) (tree : FileTree) :
    (compileDirectory settings.options tree settings.input).report.digest =
      some (Digest.ofText (settings.stylesheet tree)) := rfl

/-- **What `check` accepts**: the output holds the octets of the stylesheet, and the stylesheet has
the expected digest. -/
theorem runCheck_succeeds_iff (settings : Settings) (expected : Option Digest) (tree : FileTree) :
    (Command.runCheck settings expected tree).succeeds = true ↔
      tree.readFile settings.output = .ok (settings.stylesheet tree).toUTF8 ∧
        ∀ digest, expected = some digest → digest = Digest.ofText (settings.stylesheet tree) := by
  rw [← digestMismatch?_eq_none_iff, ← Artifact.read_eq_some_iff, Command.runCheck,
    digest_compileDirectory]
  cases mismatch : Command.digestMismatch? expected
      (some (Digest.ofText (settings.stylesheet tree))) with
  | some digests => simp [Response.succeeds, Response.failed]
  | none => simp [compare_succeeds_iff, Settings.stylesheet]

/-! ## Building -/

/-- A build succeeds exactly if the stylesheet is stored, with the tree that comes of it. -/
theorem runBuild_succeeds_iff {settings : Settings} {json : Bool} {tree after : FileTree} :
    (∃ shown, Command.runBuild settings json tree = (after, shown) ∧ shown.succeeds = true) ↔
      Artifact.write .standard tree settings.output (settings.stylesheet tree) =
        (after, .ok ()) := by
  unfold Command.runBuild
  have css : (compileDirectory settings.options tree settings.input).css =
      settings.stylesheet tree := rfl
  dsimp only
  rw [css]
  generalize Artifact.write .standard tree settings.output (settings.stylesheet tree) = outcome
  obtain ⟨changed, result⟩ := outcome
  cases result with
  | ok => simp [Response.succeeds, Response.printed]
  | error e => simp [Response.succeeds, Response.failed]

/-- The stylesheet is that of the documents that contribute. -/
theorem stylesheet_congr {settings : Settings} {first second : FileTree}
    (same : Compilation.survivors settings.options.mode (first.documents settings.input) =
      Compilation.survivors settings.options.mode (second.documents settings.input)) :
    settings.stylesheet first = settings.stylesheet second :=
  Compilation.css_compile_congr same

/-- A build that disturbs nothing leaves the stylesheet of its own result. -/
theorem stylesheet_after_build {settings : Settings} {tree after : FileTree}
    (wellFormed : tree.WellFormed)
    (written : Artifact.write .standard tree settings.output (settings.stylesheet tree) =
      (after, .ok ()))
    (undisturbed : Undisturbed tree after settings.input settings.output) :
    settings.stylesheet after = settings.stylesheet tree ∧
      after.readFile settings.output = .ok (settings.stylesheet tree).toUTF8 ∧
      ∃ again, Artifact.write .standard after settings.output (settings.stylesheet tree) =
          (again, .ok ()) ∧
        again.readFile settings.output = .ok (settings.stylesheet tree).toUTF8 := by
  obtain ⟨grown, directory, name, stored⟩ := Artifact.write_eq_ok rfl wellFormed written
  refine ⟨stylesheet_congr ?_, stored.readFile undisturbed.output, stored.again undisturbed.output⟩
  exact Artifact.survivors_after_write _ wellFormed stored undisturbed

/-- A build puts the stylesheet where its output ends, if the directory is there. -/
theorem runBuild_of_writable {settings : Settings} {tree : FileTree} {directory : Place}
    {name : FileName} (json : Bool) (wellFormed : tree.WellFormed)
    (isThere : tree.isDirectory settings.output.directory = true)
    (writable : tree.Writable settings.output directory name) :
    ∃ shown, Command.runBuild settings json tree =
        (tree.put (directory ++ [name]) (.file (settings.stylesheet tree).toUTF8), shown) ∧
      shown.succeeds = true :=
  runBuild_succeeds_iff.2 (Artifact.write_of_writable wellFormed isThere writable _)

/-- A build that replaces no link, whose input leads somewhere and whose output is no document,
disturbs nothing. -/
theorem undisturbed_of_links_kept {settings : Settings} {tree after : FileTree}
    (wellFormed : tree.WellFormed)
    (written : Artifact.write .standard tree settings.output (settings.stylesheet tree) =
      (after, .ok ()))
    (links : ∀ place link, tree.kindAt? place = some (.link link) →
      after.kindAt? place = some (.link link))
    (there : tree.place? settings.input ≠ none)
    (documents : ∀ path ∈ tree.discover settings.input,
      tree.place? path ≠ after.place? settings.output) :
    Undisturbed tree after settings.input settings.output := by
  obtain ⟨grown, directory, name, stored⟩ := Artifact.write_eq_ok rfl wellFormed written
  exact stored.undisturbed links there documents

/-- **Build, then check**: `check` succeeds exactly if the output holds the octets of the stylesheet
and the digest is the expected one; so it does after a build that disturbs neither its input nor its
output, also with the digest that was reported, and a second build leaves the same octets. A build
disturbs nothing if it replaces no link, its input leads somewhere and its output is no document.
Checking changes nothing.

All runs have the same settings, as they have been combined from the command line and the settings
file. So nothing is said of a build whose output is the settings file itself: what is read from it
afterwards are other settings, or none. -/
theorem build_then_check :
    (∀ (settings : Settings) (expected : Option Digest) (tree : FileTree),
      (Command.runCheck settings expected tree).succeeds = true ↔
        tree.readFile settings.output = .ok (settings.stylesheet tree).toUTF8 ∧
          ∀ digest, expected = some digest →
            digest = Digest.ofText (settings.stylesheet tree)) ∧
    (∀ (settings : Settings) (json : Bool) (tree after : FileTree) (shown : Response),
      tree.WellFormed → Command.runBuild settings json tree = (after, shown) →
        shown.succeeds = true → Undisturbed tree after settings.input settings.output →
          (Command.runCheck settings none after).succeeds = true ∧
          (Command.runCheck settings
            (compileDirectory settings.options tree settings.input).report.digest
              after).succeeds = true ∧
          ∀ json' : Bool, ∃ again shown',
            Command.runBuild settings json' after = (again, shown') ∧ shown'.succeeds = true ∧
              again.readFile settings.output = after.readFile settings.output ∧
              after.readFile settings.output = .ok (settings.stylesheet tree).toUTF8) ∧
    (∀ (settings : Settings) (json : Bool) (tree after : FileTree) (shown : Response),
      tree.WellFormed → Command.runBuild settings json tree = (after, shown) →
        shown.succeeds = true →
        (∀ place link, tree.kindAt? place = some (.link link) →
          after.kindAt? place = some (.link link)) →
        tree.place? settings.input ≠ none →
        (∀ path ∈ tree.discover settings.input,
          tree.place? path ≠ after.place? settings.output) →
          Undisturbed tree after settings.input settings.output) ∧
    ∀ (config : Option Path) (source : SourceOptions) (output : Option Path)
      (expected : Option Digest) (tree : FileTree),
      ((⟨config, .check source output expected⟩ : Invocation).run tree).1 = tree := by
  refine ⟨runCheck_succeeds_iff, ?_, ?_, ?_⟩
  · intro settings json tree after shown wellFormed built succeeds undisturbed
    have written := runBuild_succeeds_iff.1 ⟨shown, built, succeeds⟩
    obtain ⟨same, held, again, writtenAgain, heldAgain⟩ :=
      stylesheet_after_build wellFormed written undisturbed
    refine ⟨?_, ?_, ?_⟩
    · rw [runCheck_succeeds_iff, same]
      exact ⟨held, by simp⟩
    · rw [runCheck_succeeds_iff, digest_compileDirectory, same]
      exact ⟨held, by simp⟩
    · intro json'
      rw [← same] at writtenAgain
      obtain ⟨shown', builtAgain, succeedsAgain⟩ :=
        (@runBuild_succeeds_iff settings json' after again).2 writtenAgain
      exact ⟨again, shown', builtAgain, succeedsAgain, heldAgain.trans held.symm, held⟩
  · intro settings json tree after shown wellFormed built succeeds
    exact undisturbed_of_links_kept wellFormed (runBuild_succeeds_iff.1 ⟨shown, built, succeeds⟩)
  · intro config source output expected tree
    unfold Invocation.run
    dsimp only
    generalize Command.settings _ tree source output = loaded
    cases loaded <;> rfl

/-! ## Builds that disturb their input or output -/

/-- A directory with one file, and something beside it. -/
def besideDirectory (file : String) (beside : FileEntry) : FileTree :=
  ⟨.directory [("d", .directory [("a.json", .file file.toUTF8)]), ("l", beside)], []⟩

/-- A document with one token. -/
def oneToken : String := "\x7b\"a\":\x7b\"value\":\"b\"\x7d\x7d"

/-- The stylesheet of the one token. -/
def oneTokenCss : String := ":root \x7b\n  --a: b;\n\x7d\n"

/-- A directory with one document, and a link to the directory. -/
def linkedDocuments : FileTree := besideDirectory oneToken (.link "d")

theorem wellFormed_linkedDocuments : linkedDocuments.WellFormed := by
  have isD : IsName "d" := ⟨by decide, by decide, by decide, by decide, by decide⟩
  have isL : IsName "l" := ⟨by decide, by decide, by decide, by decide, by decide⟩
  have isA : IsName "a.json" := ⟨by decide, by decide, by decide, by decide, by decide⟩
  have inner : ∀ file, (FileEntry.directory [("a.json", .file file)]).WellNamed := by
    intro file
    exact .directory (by simp) (by simpa using isA) (by simpa using FileEntry.WellNamed.file file)
  refine ⟨.directory (by simp) ?_ ?_, rfl⟩
  · simpa using ⟨isD, isL⟩
  · simpa using ⟨inner _, FileEntry.WellNamed.link "d"⟩

theorem isLink_linkedDocuments : linkedDocuments.kindAt? ["l"] = some (.link "d") := rfl

/-- The one file of a directory is the one document below a path to it, if it has the name of one. -/
theorem discover_of_one_file {tree : FileTree} {input : Path} {place : Place} {name : FileName}
    {content : ByteArray} (found : tree.Finds .read input place)
    (isEntry : tree.at? place = some (.directory [(name, .file content)]))
    (isDocument : (input.append name).isDocument = true) :
    tree.discover input = [input.append name] := by
  have files : (FileEntry.directory [(name, .file content)]).files = [[name]] := by
    simp [FileEntry.files, FileEntry.leaves, FileEntry.leavesOfEach, FileEntry.sortByName,
      FileEntry.placesUnder, FileEntry.isFile]
  rw [discover, filesAt, entry?_eq_ok_iff.2 ⟨place, found, isEntry⟩]
  simp [FileEntry.isFile, files, Path.appendAll, isDocument]

theorem load_of_finds {tree : FileTree} {path : Path} {place : Place} {content : ByteArray}
    (found : tree.Finds .read path place) (isFile : tree.kindAt? place = some (.file content)) :
    Document.load tree path = Document.parse path content := by
  simp only [Document.load, readFile_of_finds found isFile]

theorem discover_besideDirectory (file : String) (beside : FileEntry) :
    (besideDirectory file beside).discover ⟨"d"⟩ = [⟨"d/a.json"⟩] :=
  discover_of_one_file ⟨by decide, .down (by decide) rfl (.here rfl)⟩ rfl (by decide +kernel)

/-- By the path of a link to the directory the file is found as well. -/
theorem discover_link (file : String) :
    (besideDirectory file (.link "d")).discover ⟨"l"⟩ = [⟨"l/a.json"⟩] :=
  discover_of_one_file ⟨by decide, .link (by decide) rfl rfl (.down (by decide) rfl (.here rfl))⟩ rfl
    (by decide +kernel)

theorem load_besideDirectory (file : String) (beside : FileEntry) :
    Document.load (besideDirectory file beside) ⟨"d/a.json"⟩ =
      Document.parse ⟨"d/a.json"⟩ file.toUTF8 :=
  load_of_finds ⟨by decide, .down (by decide) rfl (.file (by decide) rfl)⟩ rfl

theorem load_linkedDocuments :
    Document.load linkedDocuments ⟨"l/a.json"⟩ = Document.parse ⟨"l/a.json"⟩ oneToken.toUTF8 :=
  load_of_finds ⟨by decide, .link (by decide) isLink_linkedDocuments rfl
    (.down (by decide) rfl (.file (by decide) rfl))⟩ rfl

theorem stylesheet_linkedDocuments (output : Path) :
    (⟨⟨"d"⟩, output, .standard⟩ : Settings).stylesheet linkedDocuments = oneTokenCss ∧
      (⟨⟨"l"⟩, output, .standard⟩ : Settings).stylesheet linkedDocuments = oneTokenCss := by
  constructor
  · show (compile .standard (linkedDocuments.documents ⟨"d"⟩)).css = _
    rw [linkedDocuments, documents, discover_besideDirectory, List.map_singleton,
      Document.loadResult, load_besideDirectory]
    decide +kernel
  · show (compile .standard (linkedDocuments.documents ⟨"l"⟩)).css = _
    rw [documents, linkedDocuments, discover_link, List.map_singleton, Document.loadResult,
      ← linkedDocuments, load_linkedDocuments]
    decide +kernel

/-- `check` fails after a build if the output does not hold the stylesheet of the new tree. -/
theorem check_fails_of_writable {settings : Settings} {directory : Place} {name : FileName}
    {after : FileTree} (isThere : linkedDocuments.isDirectory settings.output.directory = true)
    (writable : linkedDocuments.Writable settings.output directory name)
    (result : linkedDocuments.put (directory ++ [name])
      (.file (settings.stylesheet linkedDocuments).toUTF8) = after)
    (differs : after.readFile settings.output ≠ .ok (settings.stylesheet after).toUTF8) :
    ∃ after shown, Command.runBuild settings false linkedDocuments = (after, shown) ∧
      shown.succeeds = true ∧ (Command.runCheck settings none after).succeeds = false := by
  obtain ⟨shown, built, succeeds⟩ :=
    runBuild_of_writable false wellFormed_linkedDocuments isThere writable
  refine ⟨after, shown, by rw [built, result], succeeds, ?_⟩
  rw [Bool.eq_false_iff]
  exact fun accepted => differs ((runCheck_succeeds_iff _ _ _).1 accepted).1

/-- The output is the document, by another spelling of its path. -/
theorem check_fails_at_document :
    ∃ after shown,
      Command.runBuild ⟨⟨"d"⟩, ⟨"d/./a.json"⟩, .standard⟩ false linkedDocuments = (after, shown) ∧
        shown.succeeds = true ∧
        (Command.runCheck ⟨⟨"d"⟩, ⟨"d/./a.json"⟩, .standard⟩ none after).succeeds = false := by
  have isFile : linkedDocuments.kindAt? ["d", "a.json"] = some (.file oneToken.toUTF8) := rfl
  have after : linkedDocuments.put ["d", "a.json"] (.file oneTokenCss.toUTF8) =
      besideDirectory oneTokenCss (.link "d") := rfl
  refine @check_fails_of_writable ⟨⟨"d"⟩, ⟨"d/./a.json"⟩, .standard⟩ ["d"] "a.json"
    (besideDirectory oneTokenCss (.link "d"))
    (isDirectory_iff.2 ⟨["d"], ⟨by decide, .down (by decide) rfl (.here rfl)⟩, rfl⟩)
    ⟨⟨rfl, by decide, .down (by decide) rfl (.stay (.here rfl))⟩, rfl,
      ne_of_eq_of_ne isFile (by simp)⟩
    (by rw [(stylesheet_linkedDocuments _).1]; exact after) ?_
  have held : (besideDirectory oneTokenCss (.link "d")).readFile ⟨"d/./a.json"⟩ =
      .ok oneTokenCss.toUTF8 :=
    @readFile_of_finds _ _ ["d", "a.json"] _
      ⟨by decide, .down (by decide) rfl (.stay (.file (by decide) rfl))⟩ rfl
  -- Where the document was, a stylesheet is left, which is no document.
  have css : (⟨⟨"d"⟩, ⟨"d/./a.json"⟩, .standard⟩ : Settings).stylesheet
      (besideDirectory oneTokenCss (.link "d")) = ":root \x7b\n\x7d\n" := by
    show (compile .standard ((besideDirectory oneTokenCss (.link "d")).documents ⟨"d"⟩)).css = _
    rw [documents, discover_besideDirectory, List.map_singleton, Document.loadResult,
      load_besideDirectory]
    decide +kernel
  rw [held, css]
  decide +kernel

/-- The output is a link on its own way. -/
theorem check_fails_at_own_link :
    ∃ after shown,
      Command.runBuild ⟨⟨"d"⟩, ⟨"l/../l"⟩, .standard⟩ false linkedDocuments = (after, shown) ∧
        shown.succeeds = true ∧
        (Command.runCheck ⟨⟨"d"⟩, ⟨"l/../l"⟩, .standard⟩ none after).succeeds = false := by
  have after : ∀ css, linkedDocuments.put ["l"] (.file css) =
      besideDirectory oneToken (.file css) := fun _ => rfl
  have lost : ∀ css, (besideDirectory oneToken (.file css)).readFile ⟨"l/../l"⟩ =
      .error .notDirectory := by
    intro css
    rw [besideDirectory]
    generalize oneToken.toUTF8 = held
    cbv
  refine @check_fails_of_writable ⟨⟨"d"⟩, ⟨"l/../l"⟩, .standard⟩ [] "l" _
    (isDirectory_iff.2 ⟨[], ⟨by decide, .link (by decide) isLink_linkedDocuments rfl
      (.down (by decide) rfl (.up (.here rfl)))⟩, rfl⟩)
    ⟨⟨rfl, by decide, .link (by decide) isLink_linkedDocuments rfl
      (.down (by decide) rfl (.up (.here rfl)))⟩, rfl, ?_⟩ (after _) ?_
  · rw [List.nil_append, isLink_linkedDocuments]
    simp
  · rw [lost]
    simp

/-- The output is the link that is the input. -/
theorem check_fails_at_input :
    ∃ after shown,
      Command.runBuild ⟨⟨"l"⟩, ⟨"l"⟩, .standard⟩ false linkedDocuments = (after, shown) ∧
        shown.succeeds = true ∧
        (Command.runCheck ⟨⟨"l"⟩, ⟨"l"⟩, .standard⟩ none after).succeeds = false := by
  have after : linkedDocuments.put ["l"] (.file oneTokenCss.toUTF8) =
      besideDirectory oneToken (.file oneTokenCss.toUTF8) := rfl
  have held : ∀ css, (besideDirectory oneToken (.file css)).readFile ⟨"l"⟩ = .ok css :=
    fun css => @readFile_of_finds _ _ ["l"] css ⟨by decide, .file (by decide) rfl⟩ rfl
  have nothing : ∀ css, (besideDirectory oneToken (.file css)).discover ⟨"l"⟩ = [] := by
    intro css
    have isDocument : Path.isDocument ⟨"l"⟩ = false := by decide +kernel
    rw [@discover_of_file _ _ ["l"] css ⟨by decide, .file (by decide) rfl⟩ rfl, isDocument]
    rfl
  refine @check_fails_of_writable ⟨⟨"l"⟩, ⟨"l"⟩, .standard⟩ [] "l"
    (besideDirectory oneToken (.file oneTokenCss.toUTF8))
    (isDirectory_iff.2 ⟨[], ⟨by decide, .stay (.here rfl)⟩, rfl⟩)
    ⟨⟨rfl, by decide, .here rfl⟩, rfl, ?_⟩
    (by rw [(stylesheet_linkedDocuments _).2]; exact after) ?_
  · rw [List.nil_append, isLink_linkedDocuments]
    simp
  · -- The input is a file now, and its name is not that of a document.
    have css : (⟨⟨"l"⟩, ⟨"l"⟩, .standard⟩ : Settings).stylesheet
        (besideDirectory oneToken (.file oneTokenCss.toUTF8)) = ":root \x7b\n\x7d\n" := by
      show (compile .standard
        ((besideDirectory oneToken (.file oneTokenCss.toUTF8)).documents ⟨"l"⟩)).css = _
      rw [documents, nothing]
      decide +kernel
    rw [held, css]
    decide +kernel

/-- A build beside the documents, and all that is needed for `check` after it. -/
theorem build_then_check_beside_documents :
    ∃ after shown,
      linkedDocuments.WellFormed ∧
      Command.runBuild ⟨⟨"d"⟩, ⟨"o"⟩, .standard⟩ false linkedDocuments = (after, shown) ∧
      shown.succeeds = true ∧ Undisturbed linkedDocuments after ⟨"d"⟩ ⟨"o"⟩ ∧
      (Command.runCheck ⟨⟨"d"⟩, ⟨"o"⟩, .standard⟩ none after).succeeds = true := by
  have free : linkedDocuments.kindAt? ["o"] = none := rfl
  have writable : linkedDocuments.Writable ⟨"o"⟩ [] "o" :=
    ⟨⟨rfl, by decide, .here rfl⟩, rfl, ne_of_eq_of_ne free (by simp)⟩
  have isThere : linkedDocuments.isDirectory (Path.directory ⟨"o"⟩) = true :=
    isDirectory_iff.2 ⟨[], ⟨by decide, .stay (.here rfl)⟩, rfl⟩
  obtain ⟨shown, built, succeeds⟩ := @runBuild_of_writable ⟨⟨"d"⟩, ⟨"o"⟩, .standard⟩ _ _ _ false
    wellFormed_linkedDocuments isThere writable
  have overwrites := overwrites_put (writable.inside wellFormed_linkedDocuments) writable.replaceable
    ((⟨⟨"d"⟩, ⟨"o"⟩, .standard⟩ : Settings).stylesheet linkedDocuments).toUTF8
  rw [List.nil_append] at built overwrites
  generalize linkedDocuments.put ["o"] (.file
    ((⟨⟨"d"⟩, ⟨"o"⟩, .standard⟩ : Settings).stylesheet linkedDocuments).toUTF8) = after
      at built overwrites
  have input : linkedDocuments.place? ⟨"d"⟩ = some (["d"] : Place) :=
    place?_eq_some_iff.2 ⟨by decide, .down (by decide) rfl (.here rfl)⟩
  have document : linkedDocuments.place? ⟨"d/a.json"⟩ = some (["d", "a.json"] : Place) :=
    place?_eq_some_iff.2 ⟨by decide, .down (by decide) rfl (.file (by decide) rfl)⟩
  have output : after.place? ⟨"o"⟩ = some (["o"] : Place) := by
    rw [place?_eq_some_iff]
    refine ⟨by decide, ?_⟩
    rw [start_congr overwrites.working]
    exact .file (by decide) overwrites.kind_written
  have undisturbed : Undisturbed linkedDocuments after ⟨"d"⟩ ⟨"o"⟩ := by
    refine build_then_check.2.2.1 ⟨⟨"d"⟩, ⟨"o"⟩, .standard⟩ false _ _ shown
      wellFormed_linkedDocuments built succeeds
      (fun place link => (overwrites.extends (Or.inl free)).kept place (.link link)) ?_ ?_
    · exact Option.ne_none_iff_exists'.2 ⟨_, input⟩
    · intro path member
      rw [show linkedDocuments.discover ⟨"d"⟩ = [⟨"d/a.json"⟩] from
        discover_besideDirectory oneToken (.link "d"), List.mem_singleton] at member
      rw [member, document, output]
      decide
  exact ⟨after, shown, wellFormed_linkedDocuments, built, succeeds, undisturbed,
    (build_then_check.2.1 _ false _ _ shown wellFormed_linkedDocuments built succeeds
      undisturbed).1⟩

/-- **After a build that disturbs its input or output `check` can fail**, though the output is no path
of a document: if the output is a document by another spelling of its path, if it is a link on
its own way, and if it is the link that is the input. -/
theorem check_fails_after_disturbing_build :
    linkedDocuments.WellFormed ∧
    (⟨"d/./a.json"⟩ ∉ linkedDocuments.discover ⟨"d"⟩ ∧
      ∃ after shown,
        Command.runBuild ⟨⟨"d"⟩, ⟨"d/./a.json"⟩, .standard⟩ false linkedDocuments =
          (after, shown) ∧ shown.succeeds = true ∧
        (Command.runCheck ⟨⟨"d"⟩, ⟨"d/./a.json"⟩, .standard⟩ none after).succeeds = false) ∧
    (⟨"l/../l"⟩ ∉ linkedDocuments.discover ⟨"d"⟩ ∧
      ∃ after shown,
        Command.runBuild ⟨⟨"d"⟩, ⟨"l/../l"⟩, .standard⟩ false linkedDocuments = (after, shown) ∧
          shown.succeeds = true ∧
        (Command.runCheck ⟨⟨"d"⟩, ⟨"l/../l"⟩, .standard⟩ none after).succeeds = false) ∧
    ⟨"l"⟩ ∉ linkedDocuments.discover ⟨"l"⟩ ∧
      ∃ after shown,
        Command.runBuild ⟨⟨"l"⟩, ⟨"l"⟩, .standard⟩ false linkedDocuments = (after, shown) ∧
          shown.succeeds = true ∧
        (Command.runCheck ⟨⟨"l"⟩, ⟨"l"⟩, .standard⟩ none after).succeeds = false := by
  have discovered : linkedDocuments.discover ⟨"d"⟩ = [⟨"d/a.json"⟩] :=
    discover_besideDirectory oneToken (.link "d")
  have discovered' : linkedDocuments.discover ⟨"l"⟩ = [⟨"l/a.json"⟩] := discover_link oneToken
  rw [discovered, discovered']
  exact ⟨wellFormed_linkedDocuments, ⟨by decide, check_fails_at_document⟩,
    ⟨by decide, check_fails_at_own_link⟩, by decide, check_fails_at_input⟩

end DesignTokens
