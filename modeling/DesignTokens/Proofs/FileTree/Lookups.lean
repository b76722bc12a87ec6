import DesignTokens.FileTree.Change
import DesignTokens.Proofs.FileTree.Walks
import DesignTokens.Proofs.Path.Routes

/-!
# Where paths lead

The places that paths lead to, by the walks of their routes (`Finds`). A path leads to one place,
the questions about a path are questions about the kind at that place, and a path that is joined from
a path and the names of a place below leads there (`finds_appendAll`). Steps that stay where they are
make no difference on the way to a directory (`Leads.of_moves`), so that the directory of a path
leads to where the last step of the path starts (`leads_directory`).
-/

set_option autoImplicit false

namespace DesignTokens

namespace FileTree

/-- A computation with a result has one in each of its two parts. -/
theorem bind_eq_ok_iff {ε α β : Type} {first : Except ε α} {next : α → Except ε β} {result : β} :
    (first >>= next) = .ok result ↔ ∃ middle, first = .ok middle ∧ next middle = .ok result := by
  cases first with
  | error e => simp [bind, Except.bind]
  | ok middle => simp [bind, Except.bind]

/-! ## Steps that stay -/

/-- Steps that stay may come before any walk. -/
theorem Leads.stays {tree : FileTree} {purpose : Purpose} {links : Nat} {here target : Place}
    {stays rest : List Step} {slashed : Bool} (allStay : ∀ step ∈ stays, step = .stay)
    (h : tree.Leads purpose links here rest slashed target) :
    tree.Leads purpose links here (stays ++ rest) slashed target := by
  induction stays with
  | nil => exact h
  | cons step others ih =>
      obtain rfl := allStay step List.mem_cons_self
      exact .stay (ih fun other member => allStay other (List.mem_cons_of_mem _ member))

/-- What leads to a directory is only a question of the steps that lead elsewhere. -/
theorem Leads.of_moves {tree : FileTree} {purpose : Purpose} {links : Nat} {here target : Place}
    {steps steps' : List Step} (h : tree.Leads purpose links here steps true target)
    (same : Path.moves steps' = Path.moves steps) :
    tree.Leads purpose links here steps' true target := by
  -- A step that leads elsewhere is found among the others behind some that stay.
  have cut : ∀ {step : Step} {rest steps' : List Step}, step ≠ .stay →
      Path.moves steps' = Path.moves (step :: rest) →
        ∃ stays rest', steps' = stays ++ step :: rest' ∧ (∀ other ∈ stays, other = .stay) ∧
          Path.moves rest' = Path.moves rest := by
    intro step rest steps' elsewhere same
    have whole : Path.moves (step :: rest) = step :: Path.moves rest := by
      simp [Path.moves, elsewhere]
    rw [whole, Path.moves, List.filter_eq_cons_iff] at same
    obtain ⟨stays, rest', cut, allStay, -, later⟩ := same
    exact ⟨stays, rest', cut, fun other member => by simpa using allStay other member, later⟩
  generalize slash : true = slashed at h ⊢
  induction h generalizing steps' with
  | here found =>
      rw [← List.append_nil steps']
      refine .stays ?_ (.here found)
      intro step member
      simpa using List.filter_eq_nil_iff.1 same step member
  | stay _ ih => exact ih same slash
  | up _ ih =>
      obtain ⟨stays, rest', rfl, allStay, later⟩ := cut (by simp) same
      exact .stays allStay (.up (ih later slash))
  | down short found _ ih =>
      obtain ⟨stays, rest', rfl, allStay, later⟩ := cut (by simp) same
      exact .stays allStay (.down short found (ih later slash))
  | file => exact absurd slash (by simp)
  | atLink => exact absurd slash (by simp)
  | link short found follows _ ih =>
      obtain ⟨stays, rest', rfl, allStay, later⟩ := cut (by simp) same
      subst slash
      refine .stays allStay (.link short found (by simp [Purpose.stopsAtLink]) ?_)
      rw [Bool.true_or] at ih ⊢
      exact ih (by rw [Path.moves_append, Path.moves_append, later]) rfl

/-! ## Finding -/

/-- Looking up a path ends at an entry. -/
def Finds (tree : FileTree) (purpose : Purpose) (path : Path) (place : Place) : Prop :=
  path.octets ≠ [] ∧
    tree.Leads purpose maxLinks (tree.start path.route) path.route.steps path.route.slashed place

/-- The place that a path leads to, beyond a link; none if nothing is there. -/
def place? (tree : FileTree) (path : Path) : Option Place :=
  match tree.lookup .read path with
  | .ok (.found place _) => some place
  | _ => none

section Finding

variable {tree : FileTree} {purpose : Purpose} {path : Path} {place : Place}

theorem lookup_of_finds (reads : purpose ≠ .write) (h : tree.Finds purpose path place) :
    ∃ entry, tree.lookup purpose path = .ok (.found place entry) ∧ tree.at? place = some entry := by
  obtain ⟨entry, walked⟩ := walk_of_leads reads h.2
  exact ⟨entry, by rw [lookup, if_neg h.1, ← walked], (leads_of_walk walked).2⟩

theorem finds_of_lookup {entry : FileEntry}
    (h : tree.lookup purpose path = .ok (.found place entry)) :
    tree.Finds purpose path place ∧ tree.at? place = some entry := by
  rw [lookup] at h
  split at h
  · exact absurd h (by simp)
  · next written =>
      obtain ⟨leads, found⟩ := leads_of_walk h
      exact ⟨⟨written, leads⟩, found⟩

theorem Finds.unique {other : Place} (reads : purpose ≠ .write) (h : tree.Finds purpose path place)
    (h' : tree.Finds purpose path other) : place = other := h.2.unique reads h'.2

theorem place?_eq_some_iff : tree.place? path = some place ↔ tree.Finds .read path place := by
  constructor
  · intro h
    rw [place?] at h
    split at h
    · next found =>
        obtain rfl := Option.some.inj h
        exact (finds_of_lookup found).1
    · exact absurd h (by simp)
  · intro h
    obtain ⟨entry, found, -⟩ := lookup_of_finds (by decide) h
    rw [place?, found]

/-- The entry at a path is the one at the place it leads to. -/
theorem entry?_eq_ok_iff {entry : FileEntry} :
    tree.entry? path = .ok entry ↔
      ∃ place, tree.Finds .read path place ∧ tree.at? place = some entry := by
  rw [ entry?, bind_eq_ok_iff]
  constructor
  · rintro ⟨target, looked, isEntry⟩
    cases target with
    | free place => exact absurd isEntry nofun
    | found place other =>
        obtain rfl : other = entry := Except.ok.inj isEntry
        exact ⟨place, finds_of_lookup looked⟩
  · rintro ⟨place, found, isEntry⟩
    obtain ⟨other, looked, isOther⟩ := lookup_of_finds (by decide) found
    obtain rfl := Option.some.inj (isOther.symm.trans isEntry)
    exact ⟨_, looked, rfl⟩

theorem isDirectory_iff :
    tree.isDirectory path = true ↔
      ∃ place, tree.Finds .read path place ∧ tree.kindAt? place = some .directory := by
  constructor
  · intro h
    rw [isDirectory] at h
    split at h
    · next entry isEntry =>
        obtain ⟨place, found, there⟩ := entry?_eq_ok_iff.1 isEntry
        refine ⟨place, found, ?_⟩
        cases entry with
        | directory entries => exact kindAt?_of_at? there
        | file content => exact absurd h (by simp [FileEntry.isDirectory])
        | link target => exact absurd h (by simp [FileEntry.isDirectory])
    · exact absurd h (by simp)
  · rintro ⟨place, found, isDirectory⟩
    obtain ⟨entries, there⟩ := at?_of_kindAt?_directory isDirectory
    rw [FileTree.isDirectory, entry?_eq_ok_iff.2 ⟨place, found, there⟩]
    rfl

theorem readFile_of_finds {content : ByteArray} (found : tree.Finds .read path place)
    (isFile : tree.kindAt? place = some (.file content)) : tree.readFile path = .ok content := by
  rw [readFile, entry?_eq_ok_iff.2 ⟨place, found, at?_of_kindAt?_file isFile⟩]
  rfl

/-- What is read from a file is what a place holds that the path leads to. -/
theorem finds_of_readFile {content : ByteArray} (h : tree.readFile path = .ok content) :
    ∃ place, tree.Finds .read path place ∧ tree.kindAt? place = some (.file content) := by
  obtain ⟨entry, isEntry, h⟩ := bind_eq_ok_iff.1 h
  obtain ⟨place, found, there⟩ := entry?_eq_ok_iff.1 isEntry
  cases entry with
  | file held =>
      obtain rfl := Except.ok.inj h
      exact ⟨place, found, kindAt?_of_at? there⟩
  | link target => exact absurd h nofun
  | directory entries => exact absurd h nofun

theorem isLink_iff :
    tree.isLink path = true ↔
      ∃ place link, tree.Finds .inspect path place ∧ tree.kindAt? place = some (.link link) := by
  constructor
  · intro h
    rw [isLink] at h
    split at h
    · next place link looked =>
        obtain ⟨found, there⟩ := finds_of_lookup looked
        exact ⟨place, link, found, kindAt?_of_at? there⟩
    · exact absurd h (by simp)
  · rintro ⟨place, link, found, isLink⟩
    obtain ⟨entry, looked, there⟩ := lookup_of_finds (by decide) found
    rw [at?_of_kindAt?_link isLink] at there
    rw [FileTree.isLink, looked, ← Option.some.inj there]

/-- A path that leads to a file is no link exactly if the file stands at the path itself. -/
theorem isLink_eq_false_iff {content : ByteArray} (found : tree.Finds .read path place)
    (isFile : tree.kindAt? place = some (.file content)) :
    tree.isLink path = false ↔ tree.Finds .inspect path place := by
  constructor
  · intro noLink
    rcases found.2.inspect with direct | ⟨stop, link, stopped, isLink⟩
    · exact ⟨found.1, direct⟩
    · rw [isLink_iff.2 ⟨stop, link, ⟨found.1, stopped⟩, isLink⟩] at noLink
      exact absurd noLink (by simp)
  · intro inspected
    rw [Bool.eq_false_iff]
    intro linked
    obtain ⟨stop, link, stopped, isLink⟩ := isLink_iff.1 linked
    rw [← inspected.unique (by decide) stopped, isFile] at isLink
    exact absurd isLink (by simp)

end Finding

/-! ## Paths in other trees -/

theorem start_congr {first second : FileTree} (same : first.working = second.working)
    (route : Route) : first.start route = second.start route := by rw [start, start, same]

theorem Finds.extends {before after : FileTree} {purpose : Purpose} {path : Path} {place : Place}
    (h : before.Finds purpose path place) (more : before.Extends after) :
    after.Finds purpose path place := by
  refine ⟨h.1, ?_⟩
  rw [start_congr more.working]
  exact h.2.extends more

theorem Finds.of_overwrites {before after : FileTree} {purpose : Purpose} {path : Path}
    {place written : Place} {content : ByteArray} (h : after.Finds purpose path place)
    (overwrites : before.Overwrites after written content) (elsewhere : place ≠ written) :
    before.Finds purpose path place := by
  refine ⟨h.1, ?_⟩
  rw [start_congr overwrites.working.symm]
  exact (h.2.of_overwrites overwrites).resolve_left elsewhere

theorem Finds.overwritten {before after : FileTree} {purpose : Purpose} {path : Path}
    {place written : Place} {content : ByteArray} (h : before.Finds purpose path place)
    (overwrites : before.Overwrites after written content)
    (noLink : ∀ link, before.kindAt? written ≠ some (.link link)) :
    after.Finds purpose path place := by
  refine ⟨h.1, ?_⟩
  rw [start_congr overwrites.working]
  exact h.2.overwritten overwrites noLink

/-! ## Names below a place -/

/-- From a directory, the names of a place below lead down to the file there. -/
theorem leads_downs {tree : FileTree} {purpose : Purpose} {links : Nat} {here place : Place}
    {content : ByteArray} (below : place ≠ []) (names : ∀ name ∈ place, IsName name)
    (found : tree.kindAt? (here ++ place) = some (.file content)) :
    tree.Leads purpose links here (place.map .down) false (here ++ place) := by
  induction place generalizing here with
  | nil => exact absurd rfl below
  | cons name rest ih =>
      have short := (names name List.mem_cons_self).short
      cases rest with
      | nil => exact .file short found
      | cons next others =>
          rw [← List.singleton_append, ← List.append_assoc] at found ⊢
          refine .down short (kindAt?_of_append found) (ih (by simp) ?_ found)
          exact fun other member => names other (List.mem_cons_of_mem _ member)

/-- **A path joined from a path and the names of a place below leads there.** -/
theorem finds_appendAll {tree : FileTree} {root : Path} {place below : Place} {content : ByteArray}
    (found : tree.Finds .read root place) (names : ∀ name ∈ below, IsName name)
    (isFile : tree.kindAt? (place ++ below) = some (.file content)) :
    tree.Finds .read (root.appendAll below) (place ++ below) := by
  cases below with
  | nil => rwa [List.append_nil]
  | cons name rest =>
      obtain ⟨text, fromRoot, steps, slashed⟩ := Path.route_appendAll found.1 names
      obtain ⟨left, onward⟩ := found.2.append (kindAt?_of_append isFile)
      refine ⟨text, ?_⟩
      rw [steps, slashed (by simp), start, fromRoot]
      exact onward (by simp) (leads_downs (by simp) names isFile)

/-! ## Directories of paths -/

theorem lookupDirectory_eq_ok_iff {tree : FileTree} {here place : Place} {steps : List Step} :
    tree.lookupDirectory here steps = .ok place ↔
      tree.Leads .read maxLinks here steps true place := by
  rw [lookupDirectory, bind_eq_ok_iff]
  constructor
  · rintro ⟨target, walked, isPlace⟩
    cases target with
    | free other => exact absurd isPlace nofun
    | found other entry =>
        obtain rfl : other = place := Except.ok.inj isPlace
        exact (leads_of_walk walked).1
  · intro leads
    obtain ⟨entry, walked⟩ := walk_of_leads (by decide) leads
    exact ⟨_, walked, rfl⟩

/-- The last step of a path goes down to a name from a directory. -/
structure EndsIn (tree : FileTree) (path : Path) (directory : Place) (name : FileName) : Prop where
  last : path.route.steps.getLast? = some (.down name)
  short : name.length ≤ maxNameSize
  leads : tree.Leads .read maxLinks (tree.start path.route) path.route.steps.dropLast true directory

theorem text_ne_empty_of_last {path : Path} {step : Step}
    (last : path.route.steps.getLast? = some step) : path.octets ≠ [] := by
  intro empty
  have nothing : path.route.steps = [] := by
    simp [Path.route, Path.segments, Path.isAbsolute, empty, Path.split, Step.ofSegment?]
  rw [nothing] at last
  exact absurd last (by simp)

theorem lookupEnding_eq_name_iff {tree : FileTree} {path : Path} {directory : Place}
    {name : FileName} {slashed : Bool} :
    tree.lookupEnding path = .ok (.name directory name slashed) ↔
      tree.EndsIn path directory name ∧ path.route.slashed = slashed := by
  constructor
  · intro h
    rw [lookupEnding] at h
    split at h
    · exact absurd h nofun
    · obtain ⟨place, looked, h⟩ := bind_eq_ok_iff.1 h
      dsimp only at h
      split at h
      · next other last =>
          split at h
          · exact absurd h nofun
          · next short =>
              obtain ⟨rfl, rfl, rfl⟩ := Ending.name.inj (Except.ok.inj h)
              exact ⟨⟨last, Nat.le_of_not_lt short, lookupDirectory_eq_ok_iff.1 looked⟩, rfl⟩
      · exact absurd h nofun
  · rintro ⟨ends, rfl⟩
    have looked := lookupDirectory_eq_ok_iff.2 ends.leads
    rw [lookupEnding, if_neg (text_ne_empty_of_last ends.last)]
    simp only [bind, Except.bind, pure, Except.pure, looked, ends.last,
      if_neg (Nat.not_lt.2 ends.short)]

/-- The ending of a path whose last step is not down to a name. -/
theorem lookupEnding_eq_turn {tree : FileTree} {path : Path} {directory : Place}
    (written : path.octets ≠ []) (turns : ∀ name, path.route.steps.getLast? ≠ some (.down name))
    (leads : tree.Leads .read maxLinks (tree.start path.route) path.route.steps.dropLast true
      directory) : tree.lookupEnding path = .ok .turn := by
  have looked := lookupDirectory_eq_ok_iff.2 leads
  rw [lookupEnding, if_neg written]
  -- By `turns` only the last case of the match is left.
  simp only [bind, Except.bind, pure, Except.pure, looked]

/-- The directory of a path leads to where the last step of the path starts. -/
theorem leads_directory {tree : FileTree} {path : Path} {place : Place} {name : FileName}
    (last : path.route.steps.getLast? = some (.down name)) (unslashed : path.route.slashed = false) :
    tree.Leads .read maxLinks (tree.start path.directory.route) path.directory.route.steps true place ↔
      tree.Leads .read maxLinks (tree.start path.route) path.route.steps.dropLast true place := by
  obtain ⟨-, fromRoot, moves⟩ := Path.route_directory last unslashed
  rw [start, fromRoot, ← start]
  exact ⟨fun h => h.of_moves moves.symm, fun h => h.of_moves moves⟩

/-- The steps of a path that ends in a name. -/
theorem EndsIn.steps {tree : FileTree} {path : Path} {directory : Place} {name : FileName}
    (h : tree.EndsIn path directory name) :
    path.route.steps = path.route.steps.dropLast ++ [.down name] := by
  obtain ⟨front, cut⟩ := List.getLast?_eq_some_iff.1 h.last
  rw [cut, List.dropLast_concat]

/-- From the directory of its last name on, the walk of a path goes down to that name. -/
theorem EndsIn.onward {tree : FileTree} {path : Path} {directory : Place} {name : FileName}
    (h : tree.EndsIn path directory name) (inside : tree.kindAt? directory = some .directory) :
    ∃ left, ∀ {slashed : Bool} {target : Place},
      tree.Leads .read left directory [.down name] slashed target →
        tree.Leads .read maxLinks (tree.start path.route) path.route.steps slashed target := by
  obtain ⟨left, onward⟩ := h.leads.append inside
  refine ⟨left, fun leads => ?_⟩
  rw [h.steps]
  exact onward (by simp) leads

/-- A path finds the file that it ends in. -/
theorem EndsIn.finds {tree : FileTree} {path : Path} {directory : Place} {name : FileName}
    {content : ByteArray} (h : tree.EndsIn path directory name)
    (unslashed : path.route.slashed = false)
    (isFile : tree.kindAt? (directory ++ [name]) = some (.file content)) :
    tree.Finds .read path (directory ++ [name]) := by
  obtain ⟨left, onward⟩ := h.onward (kindAt?_of_append isFile)
  refine ⟨text_ne_empty_of_last h.last, ?_⟩
  rw [unslashed]
  exact onward (.file h.short isFile)

/-- A path finds the directory that it ends in. -/
theorem EndsIn.finds_directory {tree : FileTree} {path : Path} {directory : Place} {name : FileName}
    (h : tree.EndsIn path directory name)
    (isDirectory : tree.kindAt? (directory ++ [name]) = some .directory) :
    tree.Finds .read path (directory ++ [name]) := by
  obtain ⟨left, onward⟩ := h.onward (kindAt?_of_append isDirectory)
  exact ⟨text_ne_empty_of_last h.last, onward (.down h.short isDirectory (.here isDirectory))⟩

theorem EndsIn.extends {before after : FileTree} {path : Path} {directory : Place} {name : FileName}
    (h : before.EndsIn path directory name) (more : before.Extends after) :
    after.EndsIn path directory name := by
  refine ⟨h.last, h.short, ?_⟩
  rw [start_congr more.working]
  exact h.leads.extends more

end FileTree

end DesignTokens
