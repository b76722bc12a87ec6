import DesignTokens.Compilation
import DesignTokens.Discovery
import DesignTokens.Json.Reader

/-!
# Loading token documents

Token documents are read from the files of a tree. A file that cannot be read or is no JSON text is
left out of the compilation with the reason.
-/

set_option autoImplicit false

namespace DesignTokens

/-- Why a document cannot be loaded or a stylesheet cannot be stored. -/
inductive StorageError where
  /-- A file operation on a path failed. -/
  | file (path : Path) (cause : FileError)
  /-- The file at a path is no JSON text. -/
  | json (path : Path) (cause : JsonError)
  /-- The finished file could not be moved to its place. -/
  | persist (cause : FileError)
deriving DecidableEq, Repr

/-- The sentence shown for a storage error. -/
def StorageError.message : StorageError → String
  | .file path cause => "I/O error on " ++ path.text ++ ": " ++ cause.message
  | .json path cause => "invalid JSON in " ++ path.text ++ ": " ++ cause.message
  | .persist cause =>
      "failed to persist artifact: failed to persist temporary file: " ++ cause.message

namespace Document

/-- Reads the content of a document; its path identifies it. -/
def parse (path : Path) (content : ByteArray) : Except StorageError Document :=
  match Json.read content with
  | .ok tree => .ok ⟨path.text, tree⟩
  | .error e => .error (.json path e)

/-- Reads the document at a path. -/
def load (tree : FileTree) (path : Path) : Except StorageError Document :=
  match tree.readFile path with
  | .ok content => parse path content
  | .error e => .error (.file path e)

/-- A document that is left out because of a storage error. -/
def skippedFor (path : Path) (e : StorageError) : SkippedDocument := ⟨path.text, e.message⟩

/-- The document at a path, or why it is left out. -/
def loadResult (tree : FileTree) (path : Path) : LoadResult :=
  match load tree path with
  | .ok document => .ok document
  | .error e => .error (skippedFor path e)

end Document

/-- The documents below a path, in the order in which they are merged. -/
def FileTree.documents (tree : FileTree) (root : Path) : List LoadResult :=
  (tree.discover root).map (Document.loadResult tree)

/-- Compiles the documents below a path. -/
def compileDirectory (options : CompileOptions) (tree : FileTree) (root : Path) : Compiled :=
  compile options (tree.documents root)

end DesignTokens
