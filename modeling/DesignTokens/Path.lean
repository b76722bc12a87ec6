import DesignTokens.Text.Utf8

/-!
# Paths

A path is a string of octets: components between slashes. Empty components and components `.` are
passed over, except for a `.` at the start of a relative path. So `a/b`, `a//b/` and `a/./b/.` have
the same components, but each keeps its own octets: a parent and a joined path are cut from and added
to them.

Any octets other than a slash can stand in a name. Where a text is written for a path or a name, it
stands for its UTF-8 octets; where a path is shown, what is no UTF-8 in it is replaced. Only a name
that is UTF-8 can be that of a token document.
-/

set_option autoImplicit false

namespace DesignTokens

/-- The name of an entry of a directory, as its octets. -/
abbrev FileName := List UInt8

instance : Coe String FileName := ⟨Utf8.octets⟩

/-- A path as it is written. -/
structure Path where
  octets : List UInt8
deriving DecidableEq, Repr

namespace Path

/-- The path that a text is. -/
def ofText (text : String) : Path := ⟨text⟩

instance : Coe String Path := ⟨ofText⟩

/-- The text that is shown for a path. -/
def text (path : Path) : String := Utf8.shown path.octets

instance : ToString Path := ⟨Path.text⟩

/-- The octet of a slash. -/
def slash : UInt8 := 0x2F

/-- The octet of a dot. -/
def dot : UInt8 := 0x2E

/-! ## Segments -/

/-- The octets between the slashes. -/
def split : List UInt8 → List (List UInt8)
  | [] => [[]]
  | b :: rest =>
      if b = slash then [] :: split rest
      else
        match split rest with
        | segment :: others => (b :: segment) :: others
        | [] => [[b]]

/-- Segments with slashes between them. -/
def join (segments : List (List UInt8)) : List UInt8 := List.intercalate [slash] segments

/-- Whether a path starts with a slash. -/
def isAbsolute (path : Path) : Bool := path.octets.head? == some slash

/-- Whether a path ends in a slash. -/
def isSlashed (path : Path) : Bool := path.octets.getLast? == some slash

/-- Whether a segment is passed over wherever it stands. -/
def isIdle (segment : List UInt8) : Bool := segment.isEmpty || segment == [dot]

/-- The segments of a path, after the leading slash of an absolute one. -/
def segments (path : Path) : List (List UInt8) :=
  if path.isAbsolute then (split path.octets).drop 1 else split path.octets

/-- Drops the idle segments at the end. A `.` at the start of a relative path is kept. -/
def dropIdleEnd (absolute : Bool) (segments : List (List UInt8)) : List (List UInt8) :=
  if !absolute && segments.head? == some [dot] then
    [dot] :: (segments.tail.reverse.dropWhile isIdle).reverse
  else (segments.reverse.dropWhile isIdle).reverse

/-- The segments up to the last component. -/
def significant (path : Path) : List (List UInt8) := dropIdleEnd path.isAbsolute path.segments

/-- The path of segments, from the root if `absolute`. -/
def ofSegments (absolute : Bool) (segments : List (List UInt8)) : Path :=
  ⟨if absolute then slash :: join segments else join segments⟩

theorem length_dropIdleEnd_le (absolute : Bool) (segments : List (List UInt8)) :
    (dropIdleEnd absolute segments).length ≤ segments.length := by
  have cut : ∀ list : List (List UInt8), (list.reverse.dropWhile isIdle).length ≤ list.length :=
    fun list => by
      have := (List.dropWhile_suffix isIdle (l := list.reverse)).length_le
      simpa using this
  unfold dropIdleEnd
  split
  · next here =>
      obtain ⟨_, starts⟩ := Bool.and_eq_true_iff.1 here
      obtain ⟨rest, rfl⟩ := List.head?_eq_some_iff.1 (beq_iff_eq.1 starts)
      simpa using cut rest
  · simpa using cut segments

/-- The segments of the parent of a path, from the segments of the path. -/
def parentSegments (absolute : Bool) (segments : List (List UInt8)) : List (List UInt8) :=
  dropIdleEnd absolute segments.dropLast

/-- The path without its last component; none if it has no component. -/
def parent? (path : Path) : Option Path :=
  if path.significant.isEmpty then none
  else some (ofSegments path.isAbsolute (parentSegments path.isAbsolute path.significant))

/-- The parent of a path of segments, the parent of that, and so on. -/
def ancestorsFrom (absolute : Bool) : List (List UInt8) → List Path
  | [] => []
  | segment :: rest =>
      let parent := parentSegments absolute (segment :: rest)
      ofSegments absolute parent :: ancestorsFrom absolute parent
termination_by segments => segments.length
decreasing_by
  have := length_dropIdleEnd_le absolute (segment :: rest).dropLast
  simp only [parentSegments, List.length_dropLast, List.length_cons] at this ⊢
  omega

/-- A path, its parent, the parent of that, and so on. -/
def ancestors (path : Path) : List Path := path :: ancestorsFrom path.isAbsolute path.significant

/-- The last component, if it is a name. -/
def fileName? (path : Path) : Option FileName :=
  match path.significant.getLast? with
  | some segment => if segment == [dot] || segment == [dot, dot] then none else some segment
  | none => none

/-- What follows the last dot of a name, unless that is the first character. -/
def extensionOf? (name : List Char) : Option (List Char) :=
  let ending := (name.reverse.takeWhile (· != '.')).reverse
  -- A dot at the start begins no extension, and without a dot the ending is the whole name.
  if ending.length + 1 < name.length then some ending else none

/-- The name of an entry of a directory, as a path below that of the directory. -/
def append (path : Path) (name : FileName) : Path :=
  if path.octets = [] then ⟨name⟩
  else if path.isSlashed then ⟨path.octets ++ name⟩
  else ⟨path.octets ++ slash :: name⟩

/-- Where a file is written: the parent, or the working directory if that is empty. -/
def directory (path : Path) : Path :=
  match path.parent? with
  | some parent => if parent.octets = [] then "." else parent
  | none => "."

/-! ## Token documents -/

/-- Names that start with it hold metadata and no tokens. -/
def metadataMarker : Char := '$'

/-- Whether a text ends in `.json`, is more than that, and does not start with the marker of
metadata. -/
def isDocumentText (text : String) : Bool :=
  extensionOf? text.toList == some "json".toList && text.toList.head? != some metadataMarker

/-- Whether the name of a file is that of a token document. One that is no text is not. -/
def isDocumentName (name : FileName) : Bool := (Utf8.decode? name).any isDocumentText

/-- Whether a path names a token document. -/
def isDocument (path : Path) : Bool := path.fileName?.any isDocumentName

end Path

end DesignTokens
