import DesignTokens.FileTree.Basic
import DesignTokens.FileTree.Error

/-!
# Looking up paths

From a path to a place of a file tree. A path is walked step by step from the root or the working
directory. Every step but the last has to lead into a directory, and links are followed on the way.
Whether a link at the end is followed depends on what the place is wanted for (`Purpose`).

A name has at most `maxNameSize` octets and a walk follows at most `maxLinks` links, as an operating
system has it. Its limit on the length of a whole path is left out: here a path may be of any length,
and so may a name that `FileTree.makeTemporary` chooses.
-/

set_option autoImplicit false

namespace DesignTokens

/-! ## Routes -/

/-- A step of a walk. -/
inductive Step where
  | stay
  | up
  | down (name : FileName)
deriving DecidableEq, Repr

/-- The steps of a path. -/
structure Route where
  /-- Whether the walk starts at the root. -/
  fromRoot : Bool
  steps : List Step
  /-- Whether the path ends in a slash, so that it has to lead to a directory. -/
  slashed : Bool
deriving DecidableEq, Repr

/-- The step of a segment of a path; none for an empty one. -/
def Step.ofSegment? (segment : List UInt8) : Option Step :=
  if segment.isEmpty then none
  else if segment = [Path.dot] then some .stay
  else if segment = [Path.dot, Path.dot] then some .up
  else some (.down segment)

/-- The steps of a path. -/
def Path.route (path : Path) : Route where
  fromRoot := path.isAbsolute
  steps := path.segments.filterMap Step.ofSegment?
  slashed := path.isSlashed

namespace FileTree

/-! ## Walking -/

/-- What a place is wanted for. -/
inductive Purpose where
  /-- To see what is there, beyond a link. -/
  | read
  /-- To see what is there, even if it is a link. -/
  | inspect
  /-- To write a file there, or where a link leads. -/
  | write
deriving DecidableEq, Repr

/-- Where a walk ends. -/
inductive Target where
  /-- At an entry. -/
  | found (place : Place) (entry : FileEntry)
  /-- At a place of a directory where nothing is. -/
  | free (place : Place)

/-- The greatest number of octets of a name. -/
def maxNameSize : Nat := 255

/-- The greatest number of links that one walk follows. -/
def maxLinks : Nat := 40

/-- Walks steps from a directory, following at most `links` links. -/
def walk (tree : FileTree) (purpose : Purpose) (links : Nat) (here : Place) (steps : List Step)
    (slashed : Bool) : Except FileError Target :=
  match steps with
  | [] =>
      match tree.at? here with
      | some entry => .ok (.found here entry)
      | none => .error .notFound
  | .stay :: rest => walk tree purpose links here rest slashed
  -- The root is its own parent.
  | .up :: rest => walk tree purpose links here.dropLast rest slashed
  | .down name :: rest =>
      let last := rest.isEmpty
      -- A slash asks for a directory, which no file can be written to.
      if last && slashed && purpose == .write then .error .isDirectory
      else if maxNameSize < name.length then .error .nameTooLong
      else
        let place := here ++ [name]
        match tree.at? place with
        | none => if last then .ok (.free place) else .error .notFound
        | some (.directory _) => walk tree purpose links place rest slashed
        | some (.file content) =>
            if last && !slashed then .ok (.found place (.file content)) else .error .notDirectory
        | some (.link target) =>
            if last && !slashed && purpose == .inspect then .ok (.found place (.link target))
            else
              match links with
              | 0 => .error .tooManyLinks
              | remaining + 1 =>
                  -- The steps of the link come before those that are left.
                  let route := target.route
                  walk tree purpose remaining (if route.fromRoot then [] else here)
                    (route.steps ++ rest) (slashed || (last && route.slashed))
termination_by (links, steps.length)

/-- Where the walk of a route starts. -/
def start (tree : FileTree) (route : Route) : Place := if route.fromRoot then [] else tree.working

/-- Looks up a path. -/
def lookup (tree : FileTree) (purpose : Purpose) (path : Path) : Except FileError Target :=
  if path.octets = [] then .error .notFound
  else
    let route := path.route
    walk tree purpose maxLinks (tree.start route) route.steps route.slashed

/-- Looks up the directory that steps lead to. -/
def lookupDirectory (tree : FileTree) (here : Place) (steps : List Step) :
    Except FileError Place := do
  match ← walk tree .read maxLinks here steps true with
  | .found place _ => return place
  | .free _ => throw .notFound

/-! ## Questions about paths -/

/-- The entry at a path, beyond a link. -/
def entry? (tree : FileTree) (path : Path) : Except FileError FileEntry := do
  match ← tree.lookup .read path with
  | .found _ entry => return entry
  | .free _ => throw .notFound

/-- Whether a path leads to a directory. -/
def isDirectory (tree : FileTree) (path : Path) : Bool :=
  match tree.entry? path with
  | .ok entry => entry.isDirectory
  | .error _ => false

/-- Whether a path leads to a regular file. -/
def isFile (tree : FileTree) (path : Path) : Bool :=
  match tree.entry? path with
  | .ok entry => entry.isFile
  | .error _ => false

/-- Reads the file at a path. -/
def readFile (tree : FileTree) (path : Path) : Except FileError ByteArray := do
  match ← tree.entry? path with
  | .file content => return content
  | _ => throw .isDirectory

/-- Reads the file at a path as text. -/
def readText (tree : FileTree) (path : Path) : Except FileError String := do
  match String.fromUTF8? (← tree.readFile path) with
  | some text => return text
  | none => throw .notText

end FileTree

end DesignTokens
