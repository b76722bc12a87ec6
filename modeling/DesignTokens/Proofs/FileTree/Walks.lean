import DesignTokens.FileTree.Lookup
import DesignTokens.Proofs.FileTree.Kinds

/-!
# Walks that find something

The walks of a file tree that end at an entry, as a relation (`Leads`) beside the function
(`leads_of_walk`, `walk_of_leads`). By rule induction on it: a walk can be cut and put together (`Leads.append`,
`Leads.split`), it is the same in a tree that extends the first (`Leads.extends`), and a file that is
written over another tree can be the end of a new walk only (`Leads.of_overwrites`).
-/

set_option autoImplicit false

namespace DesignTokens

namespace FileTree

/-- Whether a walk stops at a link at its end. -/
def Purpose.stopsAtLink (purpose : Purpose) (last slashed : Bool) : Bool :=
  last && !slashed && purpose == .inspect

/-- Where a walk goes on after a link. -/
def afterLink (here : Place) (target : Path) : Place :=
  if target.route.fromRoot then [] else here

/-- A walk of steps from a directory, following at most a number of links, ends at an entry. -/
inductive Leads (tree : FileTree) (purpose : Purpose) :
    Nat → Place → List Step → Bool → Place → Prop
  | here {links : Nat} {here : Place} {slashed : Bool} {kind : FileKind}
      (found : tree.kindAt? here = some kind) : Leads tree purpose links here [] slashed here
  | stay {links : Nat} {here target : Place} {rest : List Step} {slashed : Bool}
      (onward : Leads tree purpose links here rest slashed target) :
      Leads tree purpose links here (.stay :: rest) slashed target
  | up {links : Nat} {here target : Place} {rest : List Step} {slashed : Bool}
      (onward : Leads tree purpose links here.dropLast rest slashed target) :
      Leads tree purpose links here (.up :: rest) slashed target
  | down {links : Nat} {here target : Place} {name : FileName} {rest : List Step} {slashed : Bool}
      (short : name.length ≤ maxNameSize)
      (found : tree.kindAt? (here ++ [name]) = some .directory)
      (onward : Leads tree purpose links (here ++ [name]) rest slashed target) :
      Leads tree purpose links here (.down name :: rest) slashed target
  | file {links : Nat} {here : Place} {name : FileName} {content : ByteArray}
      (short : name.length ≤ maxNameSize)
      (found : tree.kindAt? (here ++ [name]) = some (.file content)) :
      Leads tree purpose links here [.down name] false (here ++ [name])
  | atLink {links : Nat} {here : Place} {name : FileName} {target : Path}
      (short : name.length ≤ maxNameSize)
      (found : tree.kindAt? (here ++ [name]) = some (.link target))
      (stops : purpose = .inspect) :
      Leads tree purpose links here [.down name] false (here ++ [name])
  | link {links : Nat} {here : Place} {name : FileName} {target : Path} {rest : List Step} {slashed : Bool}
      {final : Place}
      (short : name.length ≤ maxNameSize)
      (found : tree.kindAt? (here ++ [name]) = some (.link target))
      (follows : purpose.stopsAtLink rest.isEmpty slashed = false)
      (onward : Leads tree purpose links (afterLink here target)
        (target.route.steps ++ rest)
        (slashed || (rest.isEmpty && target.route.slashed)) final) :
      Leads tree purpose (links + 1) here (.down name :: rest) slashed final

/-! ## The relation and the function -/

/-- A walk that finds an entry leads to it. -/
theorem leads_of_walk {tree : FileTree} {purpose : Purpose} {links : Nat} {here : Place}
    {steps : List Step} {slashed : Bool} {target : Place} {entry : FileEntry}
    (h : tree.walk purpose links here steps slashed = .ok (.found target entry)) :
    tree.Leads purpose links here steps slashed target ∧ tree.at? target = some entry := by
  fun_induction walk tree purpose links here steps slashed with
  | case1 links here slashed other found =>
      obtain ⟨rfl, rfl⟩ := Target.found.inj (Except.ok.inj h)
      exact ⟨.here (kindAt?_of_at? found), found⟩
  | case2 => exact absurd h (by simp)
  | case3 links here slashed rest ih =>
      obtain ⟨onward, found⟩ := ih h
      exact ⟨.stay onward, found⟩
  | case4 links here slashed rest ih =>
      obtain ⟨onward, found⟩ := ih h
      exact ⟨.up onward, found⟩
  | case5 => exact absurd h (by simp)
  | case6 => exact absurd h (by simp)
  | case7 => exact absurd h (by simp)
  | case8 => exact absurd h (by simp)
  | case9 links here slashed name rest last _ short place entries found ih =>
      obtain ⟨onward, ends⟩ := ih h
      exact ⟨.down (Nat.le_of_not_lt short) (kindAt?_of_at? found) onward, ends⟩
  | case10 links here slashed name rest last _ short place content found ends =>
      obtain ⟨rfl, rfl⟩ := Target.found.inj (Except.ok.inj h)
      obtain ⟨isLast, unslashed⟩ := (Bool.and_eq_true _ _).mp ends
      obtain rfl := List.isEmpty_iff.1 isLast
      obtain rfl : slashed = false := by simpa using unslashed
      exact ⟨.file (Nat.le_of_not_lt short) (kindAt?_of_at? found), found⟩
  | case11 => exact absurd h (by simp)
  | case12 links here slashed name rest last _ short place target found ends =>
      obtain ⟨rfl, rfl⟩ := Target.found.inj (Except.ok.inj h)
      obtain ⟨⟨isLast, unslashed⟩, inspects⟩ := by simpa using ends
      obtain rfl := List.isEmpty_iff.1 isLast
      obtain rfl : slashed = false := unslashed
      exact ⟨.atLink (Nat.le_of_not_lt short) (kindAt?_of_at? found) inspects, found⟩
  | case13 => exact absurd h (by simp)
  | case14 here slashed name rest last _ short place target found follows remaining route ih =>
      obtain ⟨onward, ends⟩ := ih h
      exact ⟨.link (Nat.le_of_not_lt short) (kindAt?_of_at? found)
        (Bool.eq_false_iff.2 follows) onward, ends⟩

/-- A walk that leads to a place finds an entry there. -/
theorem walk_of_leads {tree : FileTree} {purpose : Purpose} (reads : purpose ≠ .write) {links : Nat}
    {here : Place} {steps : List Step} {slashed : Bool} {target : Place}
    (h : tree.Leads purpose links here steps slashed target) :
    ∃ entry, tree.walk purpose links here steps slashed = .ok (.found target entry) := by
  induction h with
  | here found =>
      obtain ⟨entry, found, -⟩ := exists_of_kindAt? found
      exact ⟨entry, by rw [walk, found]⟩
  | stay _ ih => simpa only [walk] using ih
  | up _ ih => simpa only [walk] using ih
  | down short found _ ih =>
      obtain ⟨entries, found⟩ := at?_of_kindAt?_directory found
      simpa [walk, reads, Nat.not_lt.2 short, found] using ih
  | file short found =>
      have found := at?_of_kindAt?_file found
      simp [walk, Nat.not_lt.2 short, found]
  | atLink short found stops =>
      have found := at?_of_kindAt?_link found
      simp [walk, Nat.not_lt.2 short, found, stops]
  | link short found follows _ ih =>
      have found := at?_of_kindAt?_link found
      rw [Purpose.stopsAtLink] at follows
      obtain ⟨entry, onward⟩ := ih
      refine ⟨entry, ?_⟩
      simp only [afterLink] at onward
      simp [walk, reads, Nat.not_lt.2 short, found, follows, onward]

/-- A walk leads to one place only. -/
theorem Leads.unique {tree : FileTree} {purpose : Purpose} (reads : purpose ≠ .write) {links : Nat}
    {here : Place} {steps : List Step} {slashed : Bool} {first second : Place}
    (h : tree.Leads purpose links here steps slashed first)
    (h' : tree.Leads purpose links here steps slashed second) : first = second := by
  obtain ⟨_, found⟩ := walk_of_leads reads h
  obtain ⟨_, found'⟩ := walk_of_leads reads h'
  exact (Target.found.inj (Except.ok.inj (found.symm.trans found'))).1

/-! ## Cutting and putting together -/

section Parts

variable {tree : FileTree} {purpose : Purpose} {links : Nat} {here target : Place}
  {steps : List Step} {slashed : Bool}

/-- The directory above a directory is a directory, and so is the root above all. -/
theorem kindAt?_dropLast (inside : tree.kindAt? here = some .directory) :
    tree.kindAt? here.dropLast = some .directory := by
  by_cases atRoot : here = []
  · rw [atRoot] at inside ⊢
    exact inside
  · rw [← List.dropLast_append_getLast atRoot] at inside
    exact kindAt?_of_append inside

theorem kindAt?_root (inside : tree.kindAt? here = some .directory) :
    tree.kindAt? [] = some .directory := by
  cases here with
  | nil => exact inside
  | cons name rest => exact kindAt?_of_append inside

/-- A link leads on from a directory to a directory. -/
theorem kindAt?_afterLink (inside : tree.kindAt? here = some .directory) (link : Path) :
    tree.kindAt? (afterLink here link) = some .directory := by
  rw [afterLink]
  split
  · exact kindAt?_root inside
  · exact inside

/-- A walk that has to end at a directory does so. -/
theorem Leads.directory (h : tree.Leads purpose links here steps true target)
    (inside : tree.kindAt? here = some .directory) : tree.kindAt? target = some .directory := by
  generalize slash : true = slashed at h
  induction h with
  | here _ => exact inside
  | stay _ ih => exact ih inside slash
  | up _ ih => exact ih (kindAt?_dropLast inside) slash
  | down _ found _ ih => exact ih found slash
  | file => exact absurd slash (by simp)
  | atLink => exact absurd slash (by simp)
  | link _ _ _ _ ih => exact ih (kindAt?_afterLink inside _) (by rw [← slash, Bool.true_or])

/-- A walk that ends at a directory may be required to do so. -/
theorem Leads.toSlashed (h : tree.Leads purpose links here steps slashed target)
    (ends : tree.kindAt? target = some .directory) :
    tree.Leads purpose links here steps true target := by
  induction h with
  | here found => exact .here found
  | stay _ ih => exact .stay (ih ends)
  | up _ ih => exact .up (ih ends)
  | down short found _ ih => exact .down short found (ih ends)
  | file _ found =>
      rw [found] at ends
      exact absurd ends (by simp)
  | atLink _ found =>
      rw [found] at ends
      exact absurd ends (by simp)
  | link short found _ _ ih =>
      refine .link short found (by simp [Purpose.stopsAtLink]) ?_
      rw [Bool.true_or]
      exact ih ends

/-- From a directory that a walk ends at, further steps continue the walk. -/
theorem Leads.append {middle : Place} (h : tree.Leads purpose links here steps slashed middle)
    (ends : tree.kindAt? middle = some .directory) :
    ∃ left, ∀ {rest : List Step} {slashed' : Bool} {target : Place}, rest ≠ [] →
      tree.Leads purpose left middle rest slashed' target →
        tree.Leads purpose links here (steps ++ rest) slashed' target := by
  induction h with
  | @here links _ _ _ _ => exact ⟨links, fun _ onward => onward⟩
  | stay _ ih =>
      obtain ⟨left, onward⟩ := ih ends
      exact ⟨left, fun more h => .stay (onward more h)⟩
  | up _ ih =>
      obtain ⟨left, onward⟩ := ih ends
      exact ⟨left, fun more h => .up (onward more h)⟩
  | down short found _ ih =>
      obtain ⟨left, onward⟩ := ih ends
      exact ⟨left, fun more h => .down short found (onward more h)⟩
  | file _ found =>
      rw [found] at ends
      exact absurd ends (by simp)
  | atLink _ found =>
      rw [found] at ends
      exact absurd ends (by simp)
  | @link _ _ _ _ rest _ _ short found _ _ ih =>
      obtain ⟨left, onward⟩ := ih ends
      refine ⟨left, ?_⟩
      intro further slashed' final more h
      have notLast : (rest ++ further).isEmpty = false := by simp [more]
      rw [List.cons_append]
      refine .link short found (by rw [notLast]; rfl) ?_
      rw [← List.append_assoc, notLast, Bool.false_and, Bool.or_false]
      exact onward more h

end Parts

/-- A walk can be cut anywhere: its first part ends at a directory. -/
theorem Leads.split {tree : FileTree} {purpose : Purpose} {second : List Step}
    (more : second ≠ []) {links : Nat} {here target : Place} {slashed : Bool} (first : List Step)
    (h : tree.Leads purpose links here (first ++ second) slashed target)
    (inside : tree.kindAt? here = some .directory) :
    ∃ middle left, tree.Leads purpose links here first true middle ∧
      tree.kindAt? middle = some .directory ∧
      tree.Leads purpose left middle second slashed target := by
  match first with
  | [] => exact ⟨here, links, .here inside, inside, h⟩
  | step :: others =>
      have notLast : (others ++ second).isEmpty = false := by simp [more]
      rw [List.cons_append] at h
      generalize whole : others ++ second = steps at h notLast
      cases h with
      | stay onward =>
          obtain ⟨middle, left, front, ends, back⟩ := Leads.split more others (whole ▸ onward) inside
          exact ⟨middle, left, .stay front, ends, back⟩
      | up onward =>
          obtain ⟨middle, left, front, ends, back⟩ :=
            Leads.split more others (whole ▸ onward) (kindAt?_dropLast inside)
          exact ⟨middle, left, .up front, ends, back⟩
      | down short found onward =>
          obtain ⟨middle, left, front, ends, back⟩ := Leads.split more others (whole ▸ onward) found
          exact ⟨middle, left, .down short found front, ends, back⟩
      | file => exact absurd notLast (by simp)
      | atLink => exact absurd notLast (by simp)
      | @link remaining _ _ link _ _ _ short found follows onward =>
          rw [notLast, Bool.false_and, Bool.or_false, ← whole, ← List.append_assoc] at onward
          obtain ⟨middle, left, front, ends, back⟩ :=
            Leads.split more _ onward (kindAt?_afterLink inside link)
          refine ⟨middle, left, .link short found ?_ front, ends, back⟩
          simp [Purpose.stopsAtLink]
termination_by (links, first.length)

/-- A walk that ends at a directory need not be required to do so. -/
theorem Leads.toUnslashed {tree : FileTree} {links : Nat} {here target : Place} {steps : List Step}
    (h : tree.Leads .read links here steps true target) (slashed : Bool) :
    tree.Leads .read links here steps slashed target := by
  generalize slash : true = required at h
  induction h generalizing slashed with
  | here found => exact .here found
  | stay _ ih => exact .stay (ih slashed slash)
  | up _ ih => exact .up (ih slashed slash)
  | down short found _ ih => exact .down short found (ih slashed slash)
  | file => exact absurd slash (by simp)
  | atLink => exact absurd slash (by simp)
  | link short found _ _ ih =>
      exact .link short found (by simp [Purpose.stopsAtLink]) (ih _ (by rw [← slash, Bool.true_or]))

/-- From the directory that the first steps of a walk lead to, the walk goes on with the other steps,
whatever it is for. -/
theorem Leads.walk_append {tree : FileTree} {links : Nat} {here middle : Place} {front : List Step}
    (h : tree.Leads .read links here front true middle) (purpose : Purpose) :
    ∃ left, ∀ {rest : List Step} {slashed : Bool}, rest ≠ [] →
      tree.walk purpose links here (front ++ rest) slashed =
        tree.walk purpose left middle rest slashed := by
  generalize slash : true = required at h
  induction h with
  | @here links _ _ _ _ => exact ⟨links, fun _ => rfl⟩
  | stay _ ih =>
      obtain ⟨left, onward⟩ := ih slash
      refine ⟨left, fun more => ?_⟩
      rw [List.cons_append, walk]
      exact onward more
  | up _ ih =>
      obtain ⟨left, onward⟩ := ih slash
      refine ⟨left, fun more => ?_⟩
      rw [List.cons_append, walk]
      exact onward more
  | down short found _ ih =>
      obtain ⟨entries, isDirectory⟩ := at?_of_kindAt?_directory found
      obtain ⟨left, onward⟩ := ih slash
      refine ⟨left, fun more => ?_⟩
      rw [← onward more]
      simp [walk, more, Nat.not_lt.2 short, isDirectory]
  | file => exact absurd slash (by simp)
  | atLink => exact absurd slash (by simp)
  | @link _ _ _ _ remaining _ _ short found _ _ ih =>
      obtain ⟨left, onward⟩ := ih (by rw [← slash, Bool.true_or])
      refine ⟨left, fun {rest} _ more => ?_⟩
      have notLast : (remaining ++ rest).isEmpty = false := by simp [more]
      rw [← onward more, List.append_assoc]
      simp [walk, notLast, Nat.not_lt.2 short, at?_of_kindAt?_link found, afterLink]

/-! ## Stopping at a link -/

/-- A walk that follows a link at its end passes the place where an inspecting one stops. -/
theorem Leads.inspect {tree : FileTree} {links : Nat} {here target : Place} {steps : List Step}
    {slashed : Bool} (h : tree.Leads .read links here steps slashed target) :
    tree.Leads .inspect links here steps slashed target ∨
      ∃ place link, tree.Leads .inspect links here steps slashed place ∧
        tree.kindAt? place = some (.link link) := by
  induction h with
  | here found => exact Or.inl (.here found)
  | stay _ ih =>
      rcases ih with direct | ⟨place, link, stopped, isLink⟩
      · exact Or.inl (.stay direct)
      · exact Or.inr ⟨place, link, .stay stopped, isLink⟩
  | up _ ih =>
      rcases ih with direct | ⟨place, link, stopped, isLink⟩
      · exact Or.inl (.up direct)
      · exact Or.inr ⟨place, link, .up stopped, isLink⟩
  | down short found _ ih =>
      rcases ih with direct | ⟨place, link, stopped, isLink⟩
      · exact Or.inl (.down short found direct)
      · exact Or.inr ⟨place, link, .down short found stopped, isLink⟩
  | file short found => exact Or.inl (.file short found)
  | atLink _ _ stops => exact absurd stops (by decide)
  | @link links here name target rest slashed final short found _ _ ih =>
      by_cases ends : (Purpose.stopsAtLink .inspect rest.isEmpty slashed) = true
      · obtain ⟨isLast, unslashed⟩ : rest.isEmpty = true ∧ slashed = false := by
          simpa [Purpose.stopsAtLink] using ends
        obtain rfl := List.isEmpty_iff.1 isLast
        subst unslashed
        exact Or.inr ⟨here ++ [name], target, .atLink short found rfl, found⟩
      · have follows := Bool.eq_false_iff.2 ends
        rcases ih with direct | ⟨place, link, stopped, isLink⟩
        · exact Or.inl (.link short found follows direct)
        · exact Or.inr ⟨place, link, .link short found follows stopped, isLink⟩

/-! ## Walks in other trees -/

/-- A walk is the same in a tree that extends the first. -/
theorem Leads.extends {before after : FileTree} {purpose : Purpose} {links : Nat} {here : Place}
    {steps : List Step} {slashed : Bool} {target : Place}
    (h : before.Leads purpose links here steps slashed target) (more : before.Extends after) :
    after.Leads purpose links here steps slashed target := by
  induction h with
  | here found => exact .here (more.kept _ _ found)
  | stay _ ih => exact .stay ih
  | up _ ih => exact .up ih
  | down short found _ ih => exact .down short (more.kept _ _ found) ih
  | file short found => exact .file short (more.kept _ _ found)
  | atLink short found stops => exact .atLink short (more.kept _ _ found) stops
  | link short found follows _ ih => exact .link short (more.kept _ _ found) follows ih

/-- A file that is written over a tree is in no walk but as its end. -/
theorem Leads.of_overwrites {before after : FileTree} {purpose : Purpose} {links : Nat}
    {here : Place} {steps : List Step} {slashed : Bool} {target written : Place}
    {content : ByteArray} (h : after.Leads purpose links here steps slashed target)
    (overwrites : before.Overwrites after written content) :
    target = written ∨ before.Leads purpose links here steps slashed target := by
  -- What stands at another place stood there before.
  have earlier : ∀ {place : Place} {kind : FileKind}, after.kindAt? place = some kind →
      place = written ∨ before.kindAt? place = some kind := by
    intro place kind found
    by_cases same : place = written
    · exact Or.inl same
    · exact Or.inr ((overwrites.kind_other place same).symm.trans found)
  induction h with
  | here found => exact (earlier found).imp id .here
  | stay _ ih => exact ih.imp id .stay
  | up _ ih => exact ih.imp id .up
  | down short found _ ih =>
      rcases earlier found with rfl | found'
      · rw [overwrites.kind_written] at found
        exact absurd found (by simp)
      · exact ih.imp id (.down short found')
  | file short found => exact (earlier found).imp id (.file short)
  | atLink short found stops => exact (earlier found).imp id fun found' => .atLink short found' stops
  | link short found follows _ ih =>
      rcases earlier found with rfl | found'
      · rw [overwrites.kind_written] at found
        exact absurd found (by simp)
      · exact ih.imp id (.link short found' follows)

/-- A walk is the same after a file has been written, unless the file replaced a link. -/
theorem Leads.overwritten {before after : FileTree} {purpose : Purpose} {links : Nat}
    {here : Place} {steps : List Step} {slashed : Bool} {target written : Place}
    {content : ByteArray} (h : before.Leads purpose links here steps slashed target)
    (overwrites : before.Overwrites after written content)
    (noLink : ∀ link, before.kindAt? written ≠ some (.link link)) :
    after.Leads purpose links here steps slashed target := by
  -- Directories and links stand where they stood, and files where there were files.
  have later : ∀ {place : Place} {kind : FileKind}, before.kindAt? place = some kind →
      after.kindAt? place = some kind ∨ ∃ held, kind = .file held ∧ place = written := by
    intro place kind found
    by_cases same : place = written
    · subst same
      cases kind with
      | file held => exact Or.inr ⟨held, rfl, rfl⟩
      | link link => exact absurd found (noLink link)
      | directory => exact absurd found overwrites.noDirectory
    · exact Or.inl ((overwrites.kind_other place same).trans found)
  induction h with
  | here found =>
      rcases later found with found | ⟨held, -, rfl⟩
      · exact .here found
      · exact .here overwrites.kind_written
  | stay _ ih => exact .stay ih
  | up _ ih => exact .up ih
  | down short found _ ih =>
      rcases later found with found | ⟨held, isFile, -⟩
      · exact .down short found ih
      · exact absurd isFile (by simp)
  | file short found =>
      rcases later found with found | ⟨held, -, same⟩
      · exact .file short found
      · exact .file short (same ▸ overwrites.kind_written)
  | atLink short found stops =>
      rcases later found with found | ⟨held, isFile, -⟩
      · exact .atLink short found stops
      · exact absurd isFile (by simp)
  | link short found follows _ ih =>
      rcases later found with found | ⟨held, isFile, -⟩
      · exact .link short found follows ih
      · exact absurd isFile (by simp)

end FileTree

end DesignTokens
