import DesignTokens.Proofs.FileTree.Changes

/-!
# Replacing and removing a file

A file is replaced by writing to its path (`writeFile_of_finds`) and removed by its path if that is no
link (`removeFile_of_finds`), as the path of a file below a directory is none (`inspects_appendAll`).
Either keeps a well-formed tree well formed and touches the place of the file only
(`overwrites_replaced`).
-/

set_option autoImplicit false

namespace DesignTokens

namespace FileEntry

/-! ## Clearing a place -/

theorem lookup_filter_ne (name other : FileName) (entries : List (FileName × FileEntry)) :
    OrderedMap.lookup other (entries.filter fun entry => entry.1 != name) =
      if other = name then none else OrderedMap.lookup other entries := by
  induction entries with
  | nil => simp [OrderedMap.lookup]
  | cons entry rest ih =>
      obtain ⟨key, inner⟩ := entry
      by_cases cleared : key = name
      · rw [List.filter_cons_of_neg (by simp [cleared]), ih]
        by_cases same : other = name
        · rw [if_pos same, if_pos same]
        · have apart : key ≠ other := fun h => same (h.symm.trans cleared)
          rw [if_neg same, if_neg same, OrderedMap.lookup, if_neg apart]
      · rw [List.filter_cons_of_pos (by simp [cleared]), OrderedMap.lookup, OrderedMap.lookup, ih]
        by_cases here : key = other
        · rw [if_pos here, if_pos here, if_neg fun h => cleared (here.trans h)]
        · rw [if_neg here, if_neg here]

/-- Clearing the place of a file changes the kind there, and no other one. -/
theorem kindAt?_erase {directoryPlace : Place} {name : FileName} {entry : FileEntry}
    {content : ByteArray} (isFile : entry.kindAt? (directoryPlace ++ [name]) = some (.file content))
    (place : Place) :
    (erase (directoryPlace ++ [name]) entry).kindAt? place =
      if place = directoryPlace ++ [name] then none else entry.kindAt? place := by
  induction directoryPlace generalizing entry place with
  | nil =>
      rw [List.nil_append] at isFile ⊢
      have isDirectory := kind_of_kindAt?_cons isFile
      rw [eq_directory_of_kind isDirectory] at isFile ⊢
      generalize entry.entries = entries at isFile ⊢
      show (directory (entries.filter fun entry => entry.1 != name)).kindAt? place = _
      cases place with
      | nil => rfl
      | cons first rest =>
          rw [kindAt?_cons, kindAt?_cons, child?_directory, child?_directory, lookup_filter_ne]
          by_cases same : first = name
          · subst same
            cases rest with
            | nil => simp
            | cons next others =>
                -- Nothing is below a file.
                rw [kindAt?_cons, child?_directory] at isFile
                obtain ⟨inner, found, ends⟩ := Option.bind_eq_some_iff.1 isFile
                rw [kindAt?_nil, Option.some.injEq] at ends
                have holdsNothing : inner.entries = [] := entries_of_kind (by simp [ends])
                simp [found, kindAt?_of_bare holdsNothing next others]
          · have other : first :: rest ≠ [name] := fun h => same (List.cons.inj h).1
            rw [if_neg same, if_neg other]
  | cons outer inner ih =>
      rw [List.cons_append] at isFile ⊢
      have isDirectory := kind_of_kindAt?_cons isFile
      rw [eq_directory_of_kind isDirectory] at isFile ⊢
      generalize entry.entries = entries at isFile ⊢
      obtain ⟨next, others, split⟩ := exists_cons_of_append_singleton inner name
      rw [kindAt?_cons, child?_directory] at isFile
      obtain ⟨child, found, within⟩ := Option.bind_eq_some_iff.1 isFile
      have cleared := ih within
      rw [split] at cleared ⊢
      rw [erase_cons_cons, found]
      cases place with
      | nil => rfl
      | cons first rest =>
          rw [kindAt?_place]
          by_cases same : outer = first
          · subst same
            rw [if_pos rfl, cleared, kindAt?_cons, child?_directory, found, Option.bind_some]
            simp
          · have other : first :: rest ≠ outer :: next :: others :=
              fun h => same (List.cons.inj h).1.symm
            rw [if_neg same, if_neg other]

/-- Clearing a place keeps an entry well named. -/
theorem WellNamed.erase {entry : FileEntry} (h : entry.WellNamed) (place : Place) :
    (FileEntry.erase place entry).WellNamed := by
  induction place generalizing entry with
  | nil =>
      have unchanged : FileEntry.erase [] entry = entry := by cases entry <;> rfl
      rwa [unchanged]
  | cons name rest ih =>
      cases h with
      | file content => cases rest <;> exact .file content
      | link target => cases rest <;> exact .link target
      | @directory entries distinct names inner =>
          have whole := WellNamed.directory distinct names inner
          cases rest with
          | nil =>
              have fewer : (entries.filter fun entry => entry.1 != name).Sublist entries :=
                List.filter_sublist
              exact .directory (distinct.sublist (fewer.map Prod.fst))
                (fun other member => names other ((fewer.map Prod.fst).subset member))
                (fun part member => inner part (fewer.subset member))
          | cons next others =>
              rw [erase_cons_cons]
              cases found : OrderedMap.lookup name entries with
              | none => exact whole
              | some child =>
                  obtain ⟨isName, within⟩ := whole.of_child? (by rw [child?_directory, found])
                  exact whole.place isName (ih within)

end FileEntry

namespace FileTree

/-! ## Trees without the file and with another content -/

section Changed

variable {tree : FileTree} {place : Place} {name : FileName} {held : ByteArray}

theorem kindAt?_erase (isFile : tree.kindAt? (place ++ [name]) = some (.file held)) (other : Place) :
    (tree.erase (place ++ [name])).kindAt? other =
      if other = place ++ [name] then none else tree.kindAt? other :=
  FileEntry.kindAt?_erase isFile other

/-- Without the file, nothing stands where it was written. -/
theorem overwrites_removed (isFile : tree.kindAt? (place ++ [name]) = some (.file held)) :
    (tree.erase (place ++ [name])).kindAt? (place ++ [name]) = none ∧
      (tree.erase (place ++ [name])).Overwrites tree (place ++ [name]) held := by
  have free : (tree.erase (place ++ [name])).kindAt? (place ++ [name]) = none := by
    rw [kindAt?_erase isFile, if_pos rfl]
  refine ⟨free, rfl, by simp [free], isFile, fun other apart => ?_⟩
  rw [kindAt?_erase isFile, if_neg apart]

/-- **With another content, a file stands where none does after its removal**, and that is all there is
between the two trees. -/
theorem overwrites_replaced (isFile : tree.kindAt? (place ++ [name]) = some (.file held))
    (content : ByteArray) :
    (tree.erase (place ++ [name])).Overwrites (tree.put (place ++ [name]) (.file content))
      (place ++ [name]) content := by
  obtain ⟨free, removed⟩ := overwrites_removed isFile
  have replaced := overwrites_put (kindAt?_of_append isFile)
    (show tree.kindAt? (place ++ [name]) ≠ some .directory by simp [isFile]) content
  refine ⟨rfl, removed.noDirectory, replaced.kind_written, fun other apart => ?_⟩
  rw [replaced.kind_other other apart, removed.kind_other other apart]

theorem WellFormed.erase (h : tree.WellFormed)
    (isFile : tree.kindAt? (place ++ [name]) = some (.file held)) :
    (tree.erase (place ++ [name])).WellFormed := by
  refine ⟨h.names.erase _, ?_⟩
  have apart : tree.working ≠ place ++ [name] := by
    intro same
    have working := h.working
    rw [same, isFile] at working
    exact absurd working (by simp)
  show (tree.erase (place ++ [name])).kindAt? tree.working = _
  rw [kindAt?_erase isFile, if_neg apart]
  exact h.working

theorem WellFormed.replace (h : tree.WellFormed)
    (isFile : tree.kindAt? (place ++ [name]) = some (.file held)) (content : ByteArray) :
    (tree.put (place ++ [name]) (.file content)).WellFormed := by
  have isName := (h.names.of_at? (at?_of_kindAt?_file isFile)).1 name (by simp)
  refine ⟨h.names.put isName (.file content), ?_⟩
  have grown := (overwrites_replaced isFile content).extends (Or.inl (overwrites_removed isFile).1)
  exact grown.kept _ _ (h.erase isFile).working

end Changed

/-! ## The operations -/

/-- A walk that ends at a file finds it for writing as well. -/
theorem walk_write_of_leads {tree : FileTree} {links : Nat} {here target : Place}
    {steps : List Step} {slashed : Bool} {content : ByteArray}
    (h : tree.Leads .read links here steps slashed target)
    (inside : tree.kindAt? here = some .directory)
    (isFile : tree.kindAt? target = some (.file content)) :
    tree.walk .write links here steps slashed = .ok (.found target (.file content)) := by
  have noDirectory : tree.kindAt? target ≠ some .directory := by simp [isFile]
  induction h with
  | here _ => exact absurd inside noDirectory
  | stay _ ih =>
      rw [walk]
      exact ih inside isFile noDirectory
  | up _ ih =>
      rw [walk]
      exact ih (kindAt?_dropLast inside) isFile noDirectory
  | @down _ _ _ _ rest slashed short found onward ih =>
      obtain rfl : slashed = false := by
        by_contra slash
        exact noDirectory (((Bool.eq_true_of_not_eq_false slash) ▸ onward).directory found)
      obtain ⟨entries, isDirectory⟩ := at?_of_kindAt?_directory found
      simpa [walk, Nat.not_lt.2 short, isDirectory] using ih found isFile noDirectory
  | file short found =>
      obtain rfl := FileKind.file.inj (Option.some.inj (found.symm.trans isFile))
      simp [walk, Nat.not_lt.2 short, at?_of_kindAt?_file found]
  | atLink _ _ stops => exact absurd stops (by decide)
  | @link _ here _ target rest slashed _ short found _ onward ih =>
      have within := kindAt?_afterLink inside target
      obtain rfl : slashed = false := by
        by_contra slash
        rw [Bool.eq_true_of_not_eq_false slash, Bool.true_or] at onward
        exact noDirectory (onward.directory within)
      have onward := ih within isFile noDirectory
      rw [afterLink] at onward
      simpa [walk, Nat.not_lt.2 short, at?_of_kindAt?_link found] using onward

theorem writeFile_of_finds {tree : FileTree} {path : Path} {place : Place} {held : ByteArray}
    (wellFormed : tree.WellFormed) (found : tree.Finds .read path place)
    (isFile : tree.kindAt? place = some (.file held)) (content : ByteArray) :
    tree.writeFile path content = .ok (tree.put place (.file content)) := by
  have walked := walk_write_of_leads found.2 (wellFormed.start _) isFile
  rw [writeFile, lookup, if_neg found.1, walked]
  rfl

theorem removeFile_of_finds {tree : FileTree} {path : Path} {place : Place} {held : ByteArray}
    (found : tree.Finds .inspect path place) (isFile : tree.kindAt? place = some (.file held)) :
    tree.removeFile path = .ok (tree.erase place) := by
  obtain ⟨entry, looked, isEntry⟩ := lookup_of_finds (by decide) found
  obtain rfl := Option.some.inj (isEntry.symm.trans (at?_of_kindAt?_file isFile))
  rw [removeFile, looked]
  rfl

/-! ## Files below a directory -/

/-- A walk that has to end at a directory is the same for any purpose. -/
theorem Leads.for_any_purpose {tree : FileTree} {links : Nat} {here target : Place}
    {steps : List Step} (h : tree.Leads .read links here steps true target) (purpose : Purpose) :
    tree.Leads purpose links here steps true target := by
  generalize slash : true = slashed at h ⊢
  induction h with
  | here found => exact .here found
  | stay _ ih => exact .stay (ih slash)
  | up _ ih => exact .up (ih slash)
  | down short found _ ih => exact .down short found (ih slash)
  | file => exact absurd slash (by simp)
  | atLink => exact absurd slash (by simp)
  | link short found _ _ ih =>
      subst slash
      exact .link short found (by simp [Purpose.stopsAtLink]) (ih (by simp))

/-- The path of a file below a directory is that of the file and of no link. -/
theorem inspects_appendAll {tree : FileTree} {root : Path} {place below : Place}
    {content : ByteArray} (found : tree.Finds .read root place) (isBelow : below ≠ [])
    (names : ∀ name ∈ below, IsName name)
    (isFile : tree.kindAt? (place ++ below) = some (.file content)) :
    tree.Finds .inspect (root.appendAll below) (place ++ below) := by
  have isDirectory : tree.kindAt? place = some .directory := by
    obtain ⟨name, rest, rfl⟩ := List.exists_cons_of_ne_nil isBelow
    exact kindAt?_of_append isFile
  obtain ⟨text, fromRoot, steps, slashed⟩ := Path.route_appendAll found.1 names
  obtain ⟨left, onward⟩ :=
    ((found.2.toSlashed isDirectory).for_any_purpose .inspect).append isDirectory
  refine ⟨text, ?_⟩
  rw [steps, slashed isBelow, start, fromRoot]
  exact onward (by simpa using isBelow) (leads_downs isBelow names isFile)

end FileTree

end DesignTokens
