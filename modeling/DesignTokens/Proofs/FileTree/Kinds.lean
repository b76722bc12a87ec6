import DesignTokens.FileTree.Basic
import DesignTokens.Proofs.OrderedMap.Insertion
import Mathlib.Data.List.Basic

/-!
# What stands at the places of a file tree

The kind of an entry is the entry without what a directory holds. A change of one place changes the
kind of that place only (`kindAt?_put`), so that trees are compared by the kinds at their places. A
tree extends another if whatever stands in the other stands there too (`Extends`), and it is written
over another at a place if the trees differ in the file at that place only (`Overwrites`).
-/

set_option autoImplicit false

namespace DesignTokens

/-! ## Kinds -/

/-- What an entry is, without what a directory holds. -/
inductive FileKind where
  | file (content : ByteArray)
  | link (target : Path)
  | directory

namespace FileEntry

/-- The kind of an entry. -/
def kind : FileEntry → FileKind
  | .file content => .file content
  | .link target => .link target
  | .directory _ => .directory

theorem eq_directory_of_kind {entry : FileEntry} (h : entry.kind = .directory) :
    entry = .directory entry.entries := by
  cases entry with
  | file content => exact absurd h (by simp [kind])
  | link target => exact absurd h (by simp [kind])
  | directory entries => rfl

/-- Only a directory holds entries. -/
theorem entries_of_kind {entry : FileEntry} (h : entry.kind ≠ .directory) : entry.entries = [] := by
  cases entry with
  | file content => rfl
  | link target => rfl
  | directory entries => exact absurd rfl h

/-- The kind of the entry at a place. -/
def kindAt? (place : Place) (entry : FileEntry) : Option FileKind := (entry.at? place).map kind

theorem kindAt?_nil (entry : FileEntry) : entry.kindAt? [] = some entry.kind := rfl

theorem kindAt?_cons (name : FileName) (rest : Place) (entry : FileEntry) :
    entry.kindAt? (name :: rest) = (entry.child? name).bind (kindAt? rest) := by
  rw [kindAt?, at?]
  cases entry.child? name <;> rfl

theorem at?_append (first second : Place) (entry : FileEntry) :
    entry.at? (first ++ second) = (entry.at? first).bind (at? second) := by
  induction first generalizing entry with
  | nil => rfl
  | cons name rest ih =>
      rw [List.cons_append, at?, at?]
      cases entry.child? name with
      | none => rfl
      | some inner => exact ih inner

/-- Nothing stands below an entry without entries. -/
theorem kindAt?_of_bare {entry : FileEntry} (bare : entry.entries = []) (name : FileName)
    (rest : Place) : entry.kindAt? (name :: rest) = none := by
  rw [kindAt?_cons, child?, bare]
  rfl

/-- Whatever something stands below is a directory. -/
theorem kind_of_kindAt?_cons {name : FileName} {rest : Place} {entry : FileEntry} {found : FileKind}
    (h : entry.kindAt? (name :: rest) = some found) : entry.kind = .directory := by
  by_contra other
  rw [kindAt?_of_bare (entries_of_kind other)] at h
  exact absurd h (by simp)

/-! ## Filling a place -/

theorem child?_directory (entries : List (FileName × FileEntry)) (name : FileName) :
    (directory entries).child? name = OrderedMap.lookup name entries := rfl

/-- What an entry of a directory is replaced by stands where the entry stood. -/
theorem kindAt?_place (name first : FileName) (rest : Place) (inner : FileEntry)
    (entries : List (FileName × FileEntry)) :
    (directory (OrderedMap.place name inner entries)).kindAt? (first :: rest) =
      if name = first then inner.kindAt? rest
      else (directory entries).kindAt? (first :: rest) := by
  rw [kindAt?_cons, kindAt?_cons, child?_directory, child?_directory, OrderedMap.lookup_place]
  split <;> rfl

/-- The equation of `put` for a place below a directory of a directory. -/
theorem put_cons_cons (content : FileEntry) (name next : FileName) (rest : Place)
    (entries : List (FileName × FileEntry)) :
    put content (name :: next :: rest) (.directory entries) =
      match OrderedMap.lookup name entries with
      | some inner =>
          .directory (OrderedMap.place name (put content (next :: rest) inner) entries)
      | none => .directory entries := rfl

theorem erase_cons_cons (name next : FileName) (rest : Place) (entries : List (FileName × FileEntry)) :
    erase (name :: next :: rest) (.directory entries) =
      match OrderedMap.lookup name entries with
      | some inner => .directory (OrderedMap.place name (erase (next :: rest) inner) entries)
      | none => .directory entries := rfl

/-- A place below a name is a name with at least one further name. -/
theorem exists_cons_of_append_singleton (place : Place) (name : FileName) :
    ∃ first rest, place ++ [name] = first :: rest := by
  cases place with
  | nil => exact ⟨name, [], rfl⟩
  | cons first rest => exact ⟨first, rest ++ [name], rfl⟩

/-- Filling a name of a directory with something that holds nothing changes the kind there, and no
other one, if it replaces no directory. -/
theorem kindAt?_put {directoryPlace : Place} {name : FileName} {entry content : FileEntry}
    (inside : entry.kindAt? directoryPlace = some .directory)
    (replaceable : entry.kindAt? (directoryPlace ++ [name]) ≠ some .directory)
    (bare : content.entries = []) (place : Place) :
    (put content (directoryPlace ++ [name]) entry).kindAt? place =
      if place = directoryPlace ++ [name] then some content.kind else entry.kindAt? place := by
  induction directoryPlace generalizing entry place with
  | nil =>
      rw [kindAt?_nil, Option.some.injEq] at inside
      rw [eq_directory_of_kind inside] at replaceable ⊢
      generalize entry.entries = entries at replaceable ⊢
      rw [List.nil_append] at replaceable ⊢
      show (directory (OrderedMap.place name content entries)).kindAt? place = _
      cases place with
      | nil => rfl
      | cons first rest =>
          rw [kindAt?_place]
          by_cases same : name = first
          · subst same
            cases rest with
            | nil => simp [kindAt?_nil]
            | cons next others =>
                -- What is replaced holds nothing either.
                have below : (directory entries).kindAt? (name :: next :: others) = none := by
                  rw [kindAt?_cons, child?_directory] at replaceable ⊢
                  cases found : OrderedMap.lookup name entries with
                  | none => rfl
                  | some inner =>
                      rw [found, Option.bind_some, kindAt?_nil] at replaceable
                      exact kindAt?_of_bare
                        (entries_of_kind fun h => replaceable (congrArg some h)) next others
                simp [kindAt?_of_bare bare, below]
          · have other : first :: rest ≠ [name] := fun h => same (List.cons.inj h).1.symm
            rw [if_neg same, if_neg other]
  | cons outer inner ih =>
      have isDirectory := kind_of_kindAt?_cons inside
      rw [eq_directory_of_kind isDirectory] at inside replaceable ⊢
      generalize entry.entries = entries at inside replaceable ⊢
      obtain ⟨next, others, split⟩ := exists_cons_of_append_singleton inner name
      rw [List.cons_append] at replaceable ⊢
      rw [kindAt?_cons, child?_directory] at inside replaceable
      obtain ⟨child, found, within⟩ := Option.bind_eq_some_iff.1 inside
      rw [found, Option.bind_some] at replaceable
      have changed := ih within replaceable
      rw [split] at changed ⊢
      rw [put_cons_cons, found]
      cases place with
      | nil => rfl
      | cons first rest =>
          rw [kindAt?_place]
          by_cases same : outer = first
          · subst same
            rw [if_pos rfl, changed, kindAt?_cons, child?_directory, found, Option.bind_some]
            simp
          · have other : first :: rest ≠ outer :: next :: others :=
              fun h => same (List.cons.inj h).1.symm
            rw [if_neg same, if_neg other]

/-- Clearing a place that has just been filled under a new name undoes the filling. -/
theorem erase_put_of_new {directoryPlace : Place} {name : FileName} {entry : FileEntry}
    {entries : List (FileName × FileEntry)}
    (inside : entry.at? directoryPlace = some (.directory entries))
    (new : name ∉ entries.map Prod.fst) (content : FileEntry) :
    erase (directoryPlace ++ [name]) (put content (directoryPlace ++ [name]) entry) = entry := by
  induction directoryPlace generalizing entry with
  | nil =>
      obtain rfl := Option.some.inj inside
      have kept : entries.filter (fun entry => entry.1 != name) = entries := by
        rw [List.filter_eq_self]
        intro other member
        simpa using fun same : other.1 = name => new (same ▸ List.mem_map_of_mem member)
      show directory ((OrderedMap.place name content entries).filter _) = _
      rw [OrderedMap.place_of_notMem new, List.filter_append, kept]
      simp
  | cons outer inner ih =>
      obtain ⟨next, others, split⟩ := exists_cons_of_append_singleton inner name
      rw [at?] at inside
      obtain ⟨child, isChild, within⟩ := Option.bind_eq_some_iff.1 inside
      cases entry with
      | file content => exact absurd isChild (by simp [child?, FileEntry.entries, OrderedMap.lookup])
      | link target => exact absurd isChild (by simp [child?, FileEntry.entries, OrderedMap.lookup])
      | directory outerEntries =>
          have undone := ih within
          rw [List.cons_append, split] at *
          rw [child?_directory] at isChild
          rw [put_cons_cons, isChild, erase_cons_cons, OrderedMap.lookup_place, if_pos rfl]
          show directory (OrderedMap.place outer _ _) = _
          rw [undone, OrderedMap.place_place, OrderedMap.place_lookup isChild]

end FileEntry

namespace FileTree

/-- The kind of the entry at a place. -/
def kindAt? (tree : FileTree) (place : Place) : Option FileKind := tree.root.kindAt? place

theorem kindAt?_eq (tree : FileTree) (place : Place) :
    tree.kindAt? place = (tree.at? place).map FileEntry.kind := rfl

theorem kindAt?_of_at? {tree : FileTree} {place : Place} {entry : FileEntry}
    (found : tree.at? place = some entry) : tree.kindAt? place = some entry.kind := by
  rw [kindAt?_eq, found]
  rfl

theorem exists_of_kindAt? {tree : FileTree} {place : Place} {kind : FileKind}
    (found : tree.kindAt? place = some kind) :
    ∃ entry, tree.at? place = some entry ∧ entry.kind = kind := by
  rwa [kindAt?_eq, Option.map_eq_some_iff] at found

theorem at?_of_kindAt?_file {tree : FileTree} {place : Place} {content : ByteArray}
    (found : tree.kindAt? place = some (.file content)) :
    tree.at? place = some (.file content) := by
  obtain ⟨entry, isEntry, kind⟩ := exists_of_kindAt? found
  cases entry with
  | file other => rw [isEntry, FileKind.file.inj kind]
  | link target => exact absurd kind (by simp [FileEntry.kind])
  | directory entries => exact absurd kind (by simp [FileEntry.kind])

theorem at?_of_kindAt?_link {tree : FileTree} {place : Place} {target : Path}
    (found : tree.kindAt? place = some (.link target)) :
    tree.at? place = some (.link target) := by
  obtain ⟨entry, isEntry, kind⟩ := exists_of_kindAt? found
  cases entry with
  | file content => exact absurd kind (by simp [FileEntry.kind])
  | link other => rw [isEntry, FileKind.link.inj kind]
  | directory entries => exact absurd kind (by simp [FileEntry.kind])

theorem at?_of_kindAt?_directory {tree : FileTree} {place : Place}
    (found : tree.kindAt? place = some .directory) :
    ∃ entries, tree.at? place = some (.directory entries) := by
  obtain ⟨entry, isEntry, kind⟩ := exists_of_kindAt? found
  exact ⟨entry.entries, by rw [isEntry, ← FileEntry.eq_directory_of_kind kind]⟩

/-- Whatever has a place below it is a directory. -/
theorem kindAt?_of_append {tree : FileTree} {place : Place} {name : FileName} {rest : Place}
    {kind : FileKind} (found : tree.kindAt? (place ++ name :: rest) = some kind) :
    tree.kindAt? place = some .directory := by
  rw [kindAt?_eq, at?, FileEntry.at?_append] at found
  rw [kindAt?_eq, at?]
  cases above : FileEntry.at? place tree.root with
  | none => simp [above] at found
  | some entry =>
      rw [above, Option.bind_some] at found
      rw [Option.map_some, FileEntry.kind_of_kindAt?_cons found]

/-! ## Comparing trees -/

/-- Whatever stands at a place of the first tree stands there in the second one. -/
structure Extends (before after : FileTree) : Prop where
  working : after.working = before.working
  kept : ∀ place kind, before.kindAt? place = some kind → after.kindAt? place = some kind

/-- The second tree has further directories at most. -/
structure GrowsTo (before after : FileTree) : Prop where
  working : after.working = before.working
  kinds : ∀ place, after.kindAt? place = before.kindAt? place ∨
    before.kindAt? place = none ∧ after.kindAt? place = some .directory

/-- The second tree has a file at a place where the first one has no directory, and is as the first
one at all other places. -/
structure Overwrites (before after : FileTree) (written : Place) (content : ByteArray) : Prop where
  working : after.working = before.working
  noDirectory : before.kindAt? written ≠ some .directory
  kind_written : after.kindAt? written = some (.file content)
  kind_other : ∀ place, place ≠ written → after.kindAt? place = before.kindAt? place

theorem GrowsTo.refl (tree : FileTree) : tree.GrowsTo tree := ⟨rfl, fun _ => Or.inl rfl⟩

theorem GrowsTo.extends {before after : FileTree} (h : before.GrowsTo after) :
    before.Extends after := by
  refine ⟨h.working, ?_⟩
  intro place kind found
  rcases h.kinds place with same | ⟨absent, -⟩
  · rw [same, found]
  · rw [absent] at found
    exact absurd found (by simp)

theorem GrowsTo.trans {first second third : FileTree} (h : first.GrowsTo second)
    (h' : second.GrowsTo third) : first.GrowsTo third := by
  refine ⟨h'.working.trans h.working, ?_⟩
  intro place
  rcases h'.kinds place with same | ⟨absent, made⟩
  · rw [same]
    exact h.kinds place
  · refine Or.inr ⟨?_, made⟩
    rcases h.kinds place with same | ⟨-, made⟩
    · rw [← same, absent]
    · rw [absent] at made
      exact absurd made (by simp)

/-- Making a directory under a new name lets the tree grow. -/
theorem growsTo_put {tree : FileTree} {place : Place} {name : FileName}
    (inside : tree.kindAt? place = some .directory) (new : tree.kindAt? (place ++ [name]) = none) :
    tree.GrowsTo (tree.put (place ++ [name]) (.directory [])) := by
  refine ⟨rfl, ?_⟩
  intro other
  have changed := FileEntry.kindAt?_put inside (by rw [← kindAt?, new]; simp)
    (show (FileEntry.directory []).entries = [] from rfl) other
  by_cases same : other = place ++ [name]
  · refine Or.inr ⟨by rw [same, new], ?_⟩
    rw [kindAt?, put, changed, if_pos same]
    rfl
  · refine Or.inl ?_
    rw [kindAt?, put, changed, if_neg same, kindAt?]

/-- Writing a file overwrites its place. -/
theorem overwrites_put {tree : FileTree} {place : Place} {name : FileName}
    (inside : tree.kindAt? place = some .directory)
    (replaceable : tree.kindAt? (place ++ [name]) ≠ some .directory) (content : ByteArray) :
    tree.Overwrites (tree.put (place ++ [name]) (.file content)) (place ++ [name]) content := by
  have changed := FileEntry.kindAt?_put inside replaceable
    (show (FileEntry.file content).entries = [] from rfl)
  refine ⟨rfl, replaceable, ?_, ?_⟩
  · rw [kindAt?, put, changed, if_pos rfl]
    rfl
  · intro other apart
    rw [kindAt?, put, changed, if_neg apart, kindAt?]

/-- A file under a new name takes nothing away. -/
theorem Overwrites.extends {before after : FileTree} {written : Place} {content : ByteArray}
    (h : before.Overwrites after written content)
    (harmless : before.kindAt? written = none ∨ before.kindAt? written = some (.file content)) :
    before.Extends after := by
  refine ⟨h.working, ?_⟩
  intro place kind found
  by_cases same : place = written
  · subst same
    rcases harmless with absent | held
    · rw [absent] at found
      exact absurd found (by simp)
    · rw [← found, held, h.kind_written]
  · rw [h.kind_other place same, found]

end FileTree

end DesignTokens
