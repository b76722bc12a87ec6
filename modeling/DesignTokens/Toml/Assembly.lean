import DesignTokens.OrderedMap
import DesignTokens.Toml.Value

/-!
# Assembling TOML tables

The statements of a TOML document build up its tables. A table may be opened once by its own header;
it may be opened before or after the tables inside it. A dotted key makes tables that only other
dotted keys extend, and a value in braces or brackets is complete as it is written. No key is given
twice.
-/

set_option autoImplicit false

namespace DesignTokens

/-- A statement of a TOML document. -/
inductive TomlStatement where
  /-- Opens the table of a path. -/
  | header (path : List String)
  /-- Opens a new table at the end of the array of a path. -/
  | arrayHeader (path : List String)
  /-- Gives a value to a key of the open table. -/
  | assign (path : List String) (value : Toml)

namespace TomlAssembly

/-- How a table came to be. -/
inductive Maker where
  /-- Its own header. -/
  | header
  /-- The header of a table inside it. -/
  | innerHeader
  /-- A dotted key. -/
  | dottedKey
deriving DecidableEq, Repr

/-- A part of a document under construction. -/
inductive Slot where
  | value (value : Toml)
  | table (maker : Maker) (entries : List (String × Slot))
  /-- An array of tables, the last one first. -/
  | tables (elements : List Slot)

/-- The entries of a table under construction. -/
abbrev Entries := List (String × Slot)

/-- Changes the entries of the table at a path, which is made if need be. The last table of an array
of tables stands for the array. `maker` says whether the way is that of a header or of a dotted key;
a dotted key goes only through tables of dotted keys. -/
def changeAt (maker : Maker) (change : Entries → Option Entries) :
    List String → Entries → Option Entries
  | [], entries => change entries
  | key :: path, entries => do
      let inner ←
        match OrderedMap.lookup key entries with
        | none => return OrderedMap.place key (.table maker (← changeAt maker change path [])) entries
        | some (.table made inner) =>
            if maker = .dottedKey ∧ made ≠ .dottedKey then none
            else pure (Slot.table made (← changeAt maker change path inner))
        -- The way leads through the table that was opened last.
        | some (.tables (.table made last :: earlier)) =>
            if maker = .dottedKey then none
            else pure (Slot.tables (.table made (← changeAt maker change path last) :: earlier))
        | some _ => none
      return OrderedMap.place key inner entries

/-- Splits a path into the way to a table and a key in it. -/
def splitLast : List String → Option (List String × String)
  | [] => none
  | key :: rest =>
      match splitLast rest with
      | some (path, last) => some (key :: path, last)
      | none => some ([], key)

/-- Adds a key that is not there. -/
def addNew (key : String) (slot : Slot) (entries : Entries) : Option Entries :=
  if (OrderedMap.lookup key entries).isSome then none else some (entries ++ [(key, slot)])

/-- Gives a value to a path of keys. -/
def assign (path : List String) (value : Toml) (entries : Entries) : Option Entries := do
  let (way, key) ← splitLast path
  changeAt .dottedKey (addNew key (.value value)) way entries

/-- Opens a table by its own header. -/
def openTable (key : String) (entries : Entries) : Option Entries :=
  match OrderedMap.lookup key entries with
  | none => some (entries ++ [(key, .table .header [])])
  -- So far only tables inside it have been opened.
  | some (.table .innerHeader inner) => some (OrderedMap.place key (.table .header inner) entries)
  | some _ => none

/-- Opens a new table at the end of an array of tables. -/
def openElement (key : String) (entries : Entries) : Option Entries :=
  match OrderedMap.lookup key entries with
  | none => some (entries ++ [(key, .tables [.table .header []])])
  | some (.tables elements) =>
      some (OrderedMap.place key (.tables (.table .header [] :: elements)) entries)
  | some _ => none

/-- The document so far, and the path of the open table. -/
structure State where
  root : Entries
  current : List String

/-- Carries out a statement. -/
def step (state : State) : TomlStatement → Option State
  | .header path => do
      let (way, key) ← splitLast path
      return ⟨← changeAt .innerHeader (openTable key) way state.root, path⟩
  | .arrayHeader path => do
      let (way, key) ← splitLast path
      return ⟨← changeAt .innerHeader (openElement key) way state.root, path⟩
  | .assign path value => do
      return ⟨← changeAt .innerHeader (assign path value) state.current state.root, state.current⟩

mutual

/-- The finished value of a part. -/
def Slot.finish : Slot → Toml
  | .value value => value
  | .table _ entries => .table (finishEntries entries)
  | .tables elements => .array (finishElements elements).reverse
termination_by structural slot => slot

/-- The finished values of the entries of a table. -/
def finishEntries : List (String × Slot) → List (String × Toml)
  | [] => []
  | (key, slot) :: rest => (key, slot.finish) :: finishEntries rest
termination_by structural entries => entries

/-- The finished values of the elements of an array. -/
def finishElements : List Slot → List Toml
  | [] => []
  | slot :: rest => slot.finish :: finishElements rest
termination_by structural elements => elements

end

end TomlAssembly

namespace Toml

/-- The table of a list of statements; none if a key is given twice. -/
def ofStatements? (statements : List TomlStatement) : Option Toml :=
  (statements.foldlM TomlAssembly.step ⟨[], []⟩).map fun state =>
    .table (TomlAssembly.finishEntries state.root)

/-- The table of a list of keys with values. -/
def ofAssignments? (assignments : List (List String × Toml)) : Option Toml :=
  ofStatements? (assignments.map fun assignment => .assign assignment.1 assignment.2)

end Toml

end DesignTokens
