import DesignTokens.Proofs.Collection.Steps

/-!
# What the walk comes to

A place of a tree is reached from the root through the wrappers and the children of branches, and
only so: not through a leaf, an array or a container that never holds tokens. A wrapper adds
nothing to the keys on the way. The walk with a stack comes to such places and to no others
(`run_reached`), and the leaves of a tree are the values of the objects that are reached
(`mem_leavesAt_iff`).
-/

set_option autoImplicit false

namespace DesignTokens

namespace Tree

/-- A part of a tree that is reached from its root, by the keys on the way, wrappers left out. -/
inductive Reaches : Json → List String → Json → Prop where
  | here (node : Json) : Reaches node [] node
  | wrapper {members : List (String × Json)} {inner target : Json} {keys : List String}
      (noValue : OrderedMap.lookup valueKey members = none)
      (found : wrapper? members = some inner) (inside : Reaches inner keys target) :
      Reaches (.object members) keys target
  | child {members : List (String × Json)} {key : String} {inner target : Json}
      {keys : List String} (noValue : OrderedMap.lookup valueKey members = none)
      (found : (key, inner) ∈ children members) (inside : Reaches inner keys target) :
      Reaches (.object members) (key :: keys) target

/-- Whether an object with a value is reached under some keys. -/
def HasLeaf (tree : Json) (keys : List String) (value : Json) : Prop :=
  ∃ members, Reaches tree keys (.object members) ∧
    OrderedMap.lookup valueKey members = some value

theorem Reaches.trans {tree middle target : Json} {keys further : List String}
    (first : Reaches tree keys middle) (second : Reaches middle further target) :
    Reaches tree (keys ++ further) target := by
  induction first with
  | here node => exact second
  | wrapper noValue found _ ih => exact .wrapper noValue found (ih second)
  | child noValue found _ ih => exact .child noValue found (ih second)

/-- A tree has the leaves of every part that is reached, under the keys on the way to it. -/
theorem Reaches.leavesAt_subset {tree node : Json} {keys : List String}
    (reached : Reaches tree keys node) (start : List String) :
    leavesAt (start ++ keys) node ⊆ leavesAt start tree := by
  induction reached generalizing start with
  | here node => rw [List.append_nil]; exact List.Subset.refl _
  | @wrapper members inner target keys noValue found _ ih =>
      intro leaf member
      simp only [leavesAt_object, noValue, found]
      apply List.mem_append_left
      simpa using ih start member
  | @child members key inner target keys noValue found _ ih =>
      intro leaf member
      simp only [leavesAt_object, noValue]
      apply List.mem_append_right
      apply List.mem_flatMap.2
      refine ⟨(key, inner), found, ih (start ++ [key]) ?_⟩
      simpa using member

/-- What stands below a branch is reached from it. -/
theorem reaches_of_branch {node inner : Json} {wrapper : Option Json}
    {members : List (String × Json)} (shape : classify node = .branch wrapper members) :
    (wrapper = some inner → Reaches node [] inner) ∧
      ∀ key, (key, inner) ∈ children members → Reaches node [key] inner := by
  have noValue := lookup_valueKey_of_branch shape
  obtain ⟨rfl, rfl⟩ := classify_eq_branch shape
  constructor
  · intro found
    exact .wrapper noValue found (.here inner)
  · intro key found
    exact .child noValue found (.here inner)

end Tree

namespace Collection

/-! ## The walk stays among the places that are reached -/

/-- Whether every place of a stack is reached from a tree, under the keys of the start and those on
the way. -/
def AllReached (start : List String) (tree : Json) (pending : List Place) : Prop :=
  ∀ place ∈ pending, ∃ keys, place.path = start ++ keys ∧ Tree.Reaches tree keys place.node

theorem allReached_start (path : List String) (tree : Json) :
    AllReached path tree (start path tree).pending := by
  intro place member
  obtain rfl := List.mem_singleton.1 member
  exact ⟨[], (List.append_nil path).symm, .here tree⟩

theorem allReached_below {start : List String} {tree : Json} {place : Place}
    {wrapper : Option Json} {members : List (String × Json)}
    (shape : Tree.classify place.node = .branch wrapper members)
    (reached : ∃ keys, place.path = start ++ keys ∧ Tree.Reaches tree keys place.node) :
    AllReached start tree (below place.path wrapper members) := by
  obtain ⟨keys, samePath, toPlace⟩ := reached
  intro next member
  rcases List.mem_append.1 member with ofWrapper | ofChild
  · obtain ⟨inner, isWrapper, rfl⟩ :
        ∃ inner, wrapper = some inner ∧ ⟨place.path, inner⟩ = next := by
      simpa using ofWrapper
    refine ⟨keys, samePath, ?_⟩
    have further := (Tree.reaches_of_branch shape).1 isWrapper
    simpa using toPlace.trans further
  · obtain ⟨⟨key, inner⟩, isChild, rfl⟩ := List.mem_map.1 ofChild
    refine ⟨keys ++ [key], by rw [samePath, List.append_assoc], ?_⟩
    exact toPlace.trans ((Tree.reaches_of_branch shape).2 key isChild)

/-- A step goes only to places that are reached. -/
theorem step_reached {start : List String} {tree : Json} {mode : CollectMode}
    {now next : Progress} (reached : AllReached start tree now.pending)
    (taken : step mode now = .ok next) : AllReached start tree next.pending := by
  obtain ⟨pending, found⟩ := now
  cases pending with
  | nil =>
      cases taken
      exact reached
  | cons place rest =>
      have ofRest : AllReached start tree rest := fun other member =>
        reached other (List.mem_cons_of_mem _ member)
      cases shape : Tree.classify place.node with
      | leaf value =>
          rw [step_of_leaf mode rest found shape] at taken
          split at taken
          · cases taken
          · cases taken
            exact ofRest
      | branch wrapper members =>
          -- Only a branch puts new places on the stack.
          rw [step_of_branch mode rest found shape] at taken
          cases taken
          intro other member
          rcases List.mem_append.1 member with under | later
          · exact allReached_below shape (reached place List.mem_cons_self) other under
          · exact ofRest other later
      | ignored =>
          rw [step_of_ignored mode rest found shape] at taken
          cases taken
          exact ofRest

/-- The walk comes only to places that are reached. -/
theorem run_reached {start : List String} {tree : Json} {mode : CollectMode} (n : Nat)
    {now next : Progress} (reached : AllReached start tree now.pending)
    (ran : run mode n now = .ok next) : AllReached start tree next.pending := by
  induction n generalizing now with
  | zero =>
      cases ran
      exact reached
  | succ n ih =>
      rw [run] at ran
      cases taken : step mode now with
      | error e =>
          rw [taken] at ran
          cases ran
      | ok between =>
          rw [taken] at ran
          exact ih (step_reached reached taken) ran

/-- A place that the walk of a tree comes to is reached under the keys of its path. -/
theorem reaches_of_run {mode : CollectMode} {path : List String} {tree : Json} {n : Nat}
    {place : Place} {rest : List Place} {found : RawTokens}
    (ran : run mode n (start path tree) = .ok ⟨place :: rest, found⟩) :
    ∃ keys, place.path = path ++ keys ∧ Tree.Reaches tree keys place.node :=
  run_reached n (allReached_start path tree) ran place List.mem_cons_self

end Collection

namespace Tree

/-- The leaves of a tree are the values of the objects that are reached. -/
theorem mem_leavesAt_iff (start : List String) (tree : Json) (leaf : Leaf) :
    leaf ∈ leavesAt start tree ↔
      ∃ keys, leaf.path = start ++ keys ∧ HasLeaf tree keys leaf.value := by
  constructor
  · intro member
    -- The permissive walk refuses no leaf, so that it comes to this one.
    obtain ⟨before, after, split⟩ := List.append_of_mem member
    have whole : Collection.leavesOf (Collection.start start tree).pending =
        before ++ leaf :: after := by
      simpa [Collection.start, Collection.leavesOf] using split
    obtain ⟨n, place, rest, ran, -, samePath, shape, -⟩ :=
      Collection.run_to_leaf .permissive whole (fun _ _ => rfl) .empty
    obtain ⟨keys, pathEq, reached⟩ := Collection.reaches_of_run ran
    obtain ⟨members, isObject, valued⟩ := classify_eq_leaf shape
    rw [isObject] at reached
    exact ⟨keys, samePath ▸ pathEq, members, reached, valued⟩
  · rintro ⟨keys, samePath, members, reached, valued⟩
    apply reached.leavesAt_subset start
    rw [leavesAt_object, valued, ← samePath]
    exact List.mem_singleton.2 rfl

end Tree

end DesignTokens
