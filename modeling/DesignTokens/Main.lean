import DesignTokens.Command

/-!
# The program

The outer layer of the program. It reads the command line and the environment, takes the part of the
file system that a command looks at into a file tree, runs the command on the tree, and stores the
stylesheet that the command has written there.
-/

set_option autoImplicit false

namespace DesignTokens.Program

/-- What stands at a path of the file system. -/
def kindAt? (path : String) : IO (Option IO.FS.FileType) := do
  try
    return some (← ((← IO.currentDir) / path).symlinkMetadata).type
  catch _ => return none

/-- The names in a directory of the file system. -/
def namesIn (path : String) : IO (List String) := do
  try
    return (← ((← IO.currentDir) / path).readDir).toList.map (·.fileName)
  catch _ => return []

/-- The path that is left when all links are followed. -/
def realPath? (path : String) : IO (Option String) := do
  try
    return some (← IO.FS.realPath path).toString
  catch _ => return none

/-- The components of a path. -/
def componentsOf (path : String) : List String := (path.splitOn "/").filter (!·.isEmpty)

/-- The place of a path without links. -/
def placeOf (path : String) : Place := (componentsOf path).map Utf8.octets

/-- The content of a file of the file system. -/
def contentAt (path : String) : IO ByteArray := do
  try
    IO.FS.readBinFile path
  catch _ => return .empty

/-- Fills a place of a tree, with the directories above it. -/
def record (tree : FileTree) (place : Place) (entry : FileEntry) : FileTree :=
  let above := (tree.createDirectories (.ofSegments true place.dropLast)).1
  if entry.isDirectory && (above.at? place).any FileEntry.isDirectory then above
  else above.put place entry

/-- Takes what is at and below a path into a tree; `path` has no links above its end. -/
partial def takeBelow (tree : FileTree) (path : String) : IO FileTree := do
  let place := placeOf path
  match ← kindAt? path with
  | some .dir =>
      let mut grown := record tree place (.directory [])
      for name in ← namesIn path do
        grown ← takeBelow grown (path ++ "/" ++ name)
      return grown
  | some .file =>
      let content ← if (Path.ofText path).isDocument then contentAt path else pure .empty
      return record tree place (.file content)
  | some .symlink => return record tree place (.link (.ofText ((← realPath? path).getD "")))
  | _ => return tree

/-- Takes what is at a path into a tree, and the way to it. -/
partial def takePath (tree : FileTree) (path : String) : IO FileTree := do
  let mut grown := tree
  let mut front := "/"
  for name in componentsOf path do
    match ← realPath? front with
    | none => return grown
    | some directory =>
        grown := record grown (placeOf directory) (.directory [])
        if name != "." && name != ".." then
          let components := componentsOf directory ++ [name]
          let place := components.map Utf8.octets
          let entry := String.intercalate "/" ("" :: components)
          match ← kindAt? entry with
          | some .dir => grown := record grown place (.directory [])
          | some .file => grown := record grown place (.file (← contentAt entry))
          | some .symlink =>
              match ← realPath? entry with
              | some target =>
                  grown := record grown place (.link (.ofText target))
                  if target != entry then grown ← takePath grown target
              | none => grown := record grown place (.link "")
          | _ => return grown
    front := front ++ "/" ++ name
  return grown

/-- A path of the command line as an absolute one. -/
def absolute (here : String) (path : Path) : String :=
  if path.isAbsolute then path.text else here ++ "/" ++ path.text

/-- Takes the documents at and below a path into a tree. -/
def takeDocuments (tree : FileTree) (path : String) : IO FileTree := do
  let grown ← takePath tree path
  match ← realPath? path with
  | some directory => takeBelow grown directory
  | none => return grown

/-- Stores the file that a command has written. -/
def store (tree : FileTree) (path : Path) : IO Unit := do
  match tree.readFile path with
  | .error _ => return
  | .ok content =>
      IO.FS.createDirAll path.directory.text
      let temporary := path.directory.append ".tokens.tmp"
      IO.FS.writeBinFile temporary.text content
      IO.FS.rename temporary.text path.text

/-- The options of a command that compiles. -/
def sourceOf? : Command → Option (SourceOptions × Option Path)
  | .build source output _ => some (source, output)
  | .check source output _ => some (source, output)
  | .list source _ => some (source, none)
  | .name _ => none

/-- Whether a command writes the stylesheet. -/
def writes : Command → Bool
  | .build _ _ _ => true
  | _ => false

/-- Runs a command on the file system. -/
def execute (invocation : Invocation) : IO Response := do
  let here := (← IO.currentDir).toString
  let start ← takePath ⟨.directory [], placeOf here⟩ here
  let config := absolute here (invocation.config.getD Config.defaultFile)
  let configured ← takePath start config
  match sourceOf? invocation.command with
  | none => return (invocation.run configured).2
  | some (source, output) =>
      match Command.settings invocation configured source output with
      | .error e => return .failed e.message
      | .ok settings =>
          let documents ← takeDocuments configured (absolute here settings.input)
          let tree ← takePath documents (absolute here settings.output)
          let (changed, response) := invocation.run tree
          if writes invocation.command && response.succeeds then store changed settings.output
          return response

end DesignTokens.Program

open DesignTokens in
/-- Reads the command line, runs the command and shows what it says. -/
def main (arguments : List String) : IO UInt32 := do
  let environment : Environment :=
    ⟨← IO.getEnv "TOKENSMITH_INPUT", ← IO.getEnv "TOKENSMITH_OUTPUT"⟩
  match CommandLine.read environment arguments with
  | .error .version =>
      IO.println CommandLine.versionText
      return 0
  | .error .help =>
      IO.println CommandLine.usage
      return 0
  | .error .usageError =>
      IO.eprintln CommandLine.usage
      return 2
  | .ok invocation =>
      let response ← Program.execute invocation
      IO.print response.output
      match response.error with
      | some message => IO.eprintln ("Error: " ++ message)
      | none => pure ()
      return UInt32.ofNat response.exitCode
