import DesignTokens.FileTree.Change
import DesignTokens.Loading

/-!
# Storing the stylesheet

The stylesheet is written to a file. An atomic write prepares the text in a fresh file beside the
destination and moves that file into place, so that no reader sees a half-written stylesheet; it
replaces a link at the destination. A plain write goes through a link.
-/

set_option autoImplicit false

namespace DesignTokens.Artifact

/-- How a stylesheet is written. -/
structure WriteOptions where
  /-- Whether missing directories above the destination are made. -/
  createDirectories : Bool
  /-- Whether the text is prepared beside the destination and moved into place. -/
  atomic : Bool

/-- The options where nothing else is said. -/
def WriteOptions.standard : WriteOptions := ⟨true, true⟩

/-- A changed tree, with the error if the change stopped half-way. -/
abbrev Outcome := FileTree × Except StorageError Unit

/-- Writes a text into the file at the destination. -/
def writePlain (tree : FileTree) (path : Path) (content : ByteArray) : Outcome :=
  match tree.writeFile path content with
  | .ok written => (written, .ok ())
  | .error e => (tree, .error (.file path e))

/-- Prepares a text beside the destination and moves it into place. If it cannot be moved, the
prepared file is removed. -/
def writeAtomic (tree : FileTree) (path : Path) (content : ByteArray) : Outcome :=
  match tree.makeTemporary path.directory content with
  | .error e => (tree, .error (.file path.directory e))
  | .ok (prepared, temporary) =>
      match prepared.moveFile temporary content path with
      | .ok moved => (moved, .ok ())
      -- The destination is as it was, and the prepared file goes.
      | .error e => (prepared.erase temporary, .error (.persist e))

/-- Makes the directories above the destination if they are wanted. -/
def prepareDirectory (options : WriteOptions) (tree : FileTree) (path : Path) : Outcome :=
  if options.createDirectories then
    match tree.createDirectories path.directory with
    | (grown, .ok ()) => (grown, .ok ())
    | (grown, .error e) => (grown, .error (.file path.directory e))
  else (tree, .ok ())

/-- Writes a stylesheet to its destination. -/
def write (options : WriteOptions) (tree : FileTree) (path : Path) (css : String) : Outcome :=
  match prepareDirectory options tree path with
  | (grown, .error e) => (grown, .error e)
  | (grown, .ok ()) =>
      if options.atomic then writeAtomic grown path css.toUTF8
      else writePlain grown path css.toUTF8

/-- Reads a stylesheet; none if there is no file. -/
def read (tree : FileTree) (path : Path) : Except StorageError (Option String) :=
  match tree.readText path with
  | .ok css => .ok (some css)
  | .error .notFound => .ok none
  | .error e => .error (.file path e)

end DesignTokens.Artifact
