import DesignTokens.FileTree.Lookup

/-!
# Discovering token documents

The token documents below a directory, depth first, with the entries of each directory in the order
of the octets of their names. The order in which a directory happens to list its entries does not
matter. Links below the directory are not followed.
-/

set_option autoImplicit false

namespace DesignTokens

namespace FileEntry

/-- The named parts of a list in the order of the octets of their names. -/
def sortByName {α : Type} (parts : List (FileName × α)) : List (FileName × α) :=
  parts.mergeSort fun first second => decide (first.1 ≤ second.1)

/-- Puts every place of a list below a name. -/
def placesUnder (part : FileName × List Place) : List Place := part.2.map fun place => part.1 :: place

mutual

/-- The places below an entry that hold an entry of a kind, itself included, depth first and in the
order of the names. Directories count only for what they hold. -/
def leaves (kind : FileEntry → Bool) : FileEntry → List Place
  | .directory entries => (sortByName (leavesOfEach kind entries)).flatMap placesUnder
  | .file content => if kind (.file content) then [[]] else []
  | .link target => if kind (.link target) then [[]] else []
termination_by structural entry => entry

/-- The places below each of a list of entries. -/
def leavesOfEach (kind : FileEntry → Bool) :
    List (FileName × FileEntry) → List (FileName × List Place)
  | [] => []
  | (name, entry) :: rest => (name, leaves kind entry) :: leavesOfEach kind rest
termination_by structural entries => entries

end

/-- The places of the regular files below an entry. -/
def files (entry : FileEntry) : List Place := entry.leaves isFile

end FileEntry

/-- The path of a place below a path. -/
def Path.appendAll (path : Path) (place : Place) : Path := place.foldl Path.append path

namespace FileTree

/-- Whether a path is that of a link, whatever it leads to. -/
def isLink (tree : FileTree) (path : Path) : Bool :=
  match tree.lookup .inspect path with
  | .ok (.found _ (.link _)) => true
  | _ => false

/-- The paths of the regular files at and below a path. A link is followed at the path itself only,
and only to a directory. -/
def filesAt (tree : FileTree) (root : Path) : List Path :=
  match tree.entry? root with
  | .error _ => []
  | .ok entry =>
      -- A link to a file is no regular file.
      if entry.isFile && tree.isLink root then []
      else entry.files.map root.appendAll

/-- The paths of the token documents at and below a path; none if nothing is there. -/
def discover (tree : FileTree) (root : Path) : List Path :=
  (tree.filesAt root).filter Path.isDocument

end FileTree

end DesignTokens
