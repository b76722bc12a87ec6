import DesignTokens.FileTree.Lookup

/-!
# Changing file trees

The operations that change a file tree. Each gives the changed tree or the reason why nothing has
changed; only `createDirectories` can stop half-way, and gives the tree in both cases.
-/

set_option autoImplicit false

namespace DesignTokens.FileTree

/-! ## Places of names -/

/-- The end of a path, seen from the directory that holds it. -/
inductive Ending where
  /-- A name in a directory; `slashed` if a slash follows it. -/
  | name (directory : Place) (name : FileName) (slashed : Bool)
  /-- A path whose last step is not down to a name. -/
  | turn

/-- Looks up the directory that holds the end of a path. -/
def lookupEnding (tree : FileTree) (path : Path) : Except FileError Ending := do
  if path.octets = [] then throw .notFound
  let route := path.route
  let directory ← tree.lookupDirectory (tree.start route) route.steps.dropLast
  match route.steps.getLast? with
  | some (.down name) =>
      if maxNameSize < name.length then throw .nameTooLong
      return .name directory name route.slashed
  | _ => return .turn

/-! ## Directories -/

/-- Makes a directory in a directory that is there. -/
def makeDirectory (tree : FileTree) (path : Path) : Except FileError FileTree := do
  match ← tree.lookupEnding path with
  | .turn => throw .alreadyExists
  | .name directory name _ =>
      let place := directory ++ [name]
      if (tree.at? place).isSome then throw .alreadyExists
      return tree.put place (.directory [])

/-- Makes the first of a list of directories, if need be inside the next one, which is made
first. -/
def createAlong (tree : FileTree) : List Path → FileTree × Except FileError Unit
  | [] => (tree, .ok ())
  | path :: above =>
      if path.octets = [] then (tree, .ok ())
      else
        match tree.makeDirectory path with
        | .ok made => (made, .ok ())
        | .error .notFound =>
            match createAlong tree above with
            | (grown, .error e) => (grown, .error e)
            | (grown, .ok ()) =>
                match grown.makeDirectory path with
                | .ok made => (made, .ok ())
                -- It may be there by now, or be reached through a link.
                | .error e => (grown, if grown.isDirectory path then .ok () else .error e)
        | .error e => (tree, if tree.isDirectory path then .ok () else .error e)

/-- Makes a directory and those above it that are missing. -/
def createDirectories (tree : FileTree) (path : Path) : FileTree × Except FileError Unit :=
  createAlong tree path.ancestors

/-! ## Files -/

/-- Writes a file, through a link if there is one. -/
def writeFile (tree : FileTree) (path : Path) (content : ByteArray) :
    Except FileError FileTree := do
  match ← tree.lookup .write path with
  | .free place => return tree.put place (.file content)
  | .found place (.file _) => return tree.put place (.file content)
  | .found _ _ => throw .isDirectory

/-- A name that no entry has: it is longer than all of them. -/
def freshName (entries : List (FileName × FileEntry)) : FileName :=
  -- More octets than any name that is there.
  let longest := (entries.map fun entry => entry.1.length).foldl max 0
  Utf8.octets ".tmp" ++ List.replicate longest 0x30

/-- Makes a file with a fresh name in a directory, and gives its place. No limit on the size of a
name applies to the fresh one. -/
def makeTemporary (tree : FileTree) (directory : Path) (content : ByteArray) :
    Except FileError (FileTree × Place) := do
  let route := directory.route
  let place ← if directory.octets = [] then throw .notFound
    else tree.lookupDirectory (tree.start route) route.steps
  let temporary := place ++ [freshName ((tree.at? place).elim [] FileEntry.entries)]
  return (tree.put temporary (.file content), temporary)

/-- Moves the file at a place to a path. A file or a link that is there is replaced. -/
def moveFile (tree : FileTree) (source : Place) (content : ByteArray) (path : Path) :
    Except FileError FileTree := do
  match ← tree.lookupEnding path with
  | .turn => throw .busy
  | .name directory name slashed =>
      if slashed then throw .notDirectory
      let place := directory ++ [name]
      match tree.at? place with
      | some (.directory _) => throw .isDirectory
      | _ => return (tree.erase source).put place (.file content)

/-- Removes a file or a link. -/
def removeFile (tree : FileTree) (path : Path) : Except FileError FileTree := do
  match ← tree.lookup .inspect path with
  | .found _ (.directory _) => throw .isDirectory
  | .found place _ => return tree.erase place
  | .free _ => throw .notFound

/-- Makes a link. -/
def makeLink (tree : FileTree) (path : Path) (target : Path) : Except FileError FileTree := do
  match ← tree.lookupEnding path with
  | .turn => throw .alreadyExists
  | .name directory name _ =>
      let place := directory ++ [name]
      if (tree.at? place).isSome then throw .alreadyExists
      return tree.put place (.link target)

end DesignTokens.FileTree
