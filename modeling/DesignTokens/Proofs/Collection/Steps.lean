import DesignTokens.Proofs.Collection.Leaves

/-!
# The walk, place by place

The walk with a stack of places as a machine that visits one place a step. It reaches the leaves of
its stack one after the other in the order of the recursion (`run_to_leaf`), and as many steps as
the stack has values are enough to end it (`run_eq_gather`). So collecting a tree ends, with the
leaves by recursion entered in order, and fails at the first leaf that the mode refuses
(`collectAt_refines_leaves`).
-/

set_option autoImplicit false

namespace DesignTokens

namespace Collection

/-- A walk under way: the places that are still to visit, and the tokens found so far. -/
structure Progress where
  pending : List Place
  found : RawTokens

/-- Visits the first place that is still to visit. A walk without one has ended and stays as it
is. -/
def step (mode : CollectMode) (now : Progress) : Except CollectError Progress :=
  match now.pending with
  | [] => .ok now
  | place :: rest =>
      match Tree.classify place.node with
      | .leaf value =>
          if mode = .strict ∧ value.isStructured then
            .error (.malformedLeaf place.path value.kind)
          else .ok ⟨rest, now.found.insert (joinPath place.path) value⟩
      | .branch wrapper members => .ok ⟨below place.path wrapper members ++ rest, now.found⟩
      | .ignored => .ok ⟨rest, now.found⟩

/-- The walk after a number of steps. -/
def run (mode : CollectMode) : Nat → Progress → Except CollectError Progress
  | 0, now => .ok now
  | n + 1, now => (step mode now).bind (run mode n)

/-- Where the walk of a tree starts. -/
def start (path : List String) (tree : Json) : Progress := ⟨[⟨path, tree⟩], .empty⟩

/-! ## One step -/

section Step

variable (mode : CollectMode) {place : Place} (rest : List Place) (found : RawTokens)

theorem step_nil : step mode ⟨[], found⟩ = .ok ⟨[], found⟩ := rfl

/-- A leaf ends the walk or is entered. -/
theorem step_of_leaf {value : Json} (shape : Tree.classify place.node = .leaf value) :
    step mode ⟨place :: rest, found⟩ =
      if Tree.Leaf.isRefused mode ⟨place.path, value⟩ then
        .error (Tree.Leaf.refusal ⟨place.path, value⟩)
      else .ok ⟨rest, found.insert (joinPath place.path) value⟩ := by
  by_cases refused : mode = .strict ∧ value.isStructured
  · simp [step, shape, Tree.Leaf.isRefused, Tree.Leaf.refusal, refused]
  · have kept : Tree.Leaf.isRefused mode ⟨place.path, value⟩ = false := by
      simpa [Tree.Leaf.isRefused] using refused
    simp [step, shape, refused, kept]

/-- A branch is replaced by what stands below it. -/
theorem step_of_branch {wrapper : Option Json} {members : List (String × Json)}
    (shape : Tree.classify place.node = .branch wrapper members) :
    step mode ⟨place :: rest, found⟩ =
      .ok ⟨below place.path wrapper members ++ rest, found⟩ := by
  simp [step, shape]

theorem step_of_ignored (shape : Tree.classify place.node = .ignored) :
    step mode ⟨place :: rest, found⟩ = .ok ⟨rest, found⟩ := by
  simp [step, shape]

end Step

/-! ## Whole runs -/

/-- A walk that has ended stays as it is. -/
theorem run_nil (mode : CollectMode) (n : Nat) (found : RawTokens) :
    run mode n ⟨[], found⟩ = .ok ⟨[], found⟩ := by
  induction n with
  | zero => rfl
  | succ n ih => rw [run, step_nil, Except.bind, ih]

/-- The steps of a run can be taken in two parts. -/
theorem run_add (mode : CollectMode) (n m : Nat) (now : Progress) :
    run mode (n + m) now = (run mode n now).bind (run mode m) := by
  induction n generalizing now with
  | zero => rw [Nat.zero_add]; rfl
  | succ n ih =>
      rw [Nat.succ_add, run, run]
      cases step mode now with
      | error e => rfl
      | ok next => exact ih next

theorem weight_cons (place : Place) (rest : List Place) :
    weight (place :: rest) = place.node.size + weight rest := rfl

/-- As many steps as the stack has values end the walk, with the leaves of the stack gathered. -/
theorem run_eq_gather (mode : CollectMode) (n : Nat) (pending : List Place) (found : RawTokens)
    (enough : weight pending ≤ n) :
    run mode n ⟨pending, found⟩ =
      (gather mode found (leavesOf pending)).map fun tokens => ⟨[], tokens⟩ := by
  induction n generalizing pending found with
  | zero =>
      cases pending with
      | nil => rfl
      | cons place rest =>
          have positive := Json.size_pos place.node
          rw [weight_cons] at enough
          omega
  | succ n ih =>
      cases pending with
      | nil => exact run_nil mode (n + 1) found
      | cons place rest =>
          have positive := Json.size_pos place.node
          rw [weight_cons] at enough
          rw [run, leavesOf_cons]
          cases shape : Tree.classify place.node with
          | leaf value =>
              rw [step_of_leaf mode rest found shape, Tree.leavesAt_of_leaf shape,
                List.singleton_append, gather_cons]
              split
              · rfl
              · exact ih rest _ (by omega)
          | branch wrapper members =>
              have lighter := @weight_below_lt place.path _ _ _ shape
              rw [step_of_branch mode rest found shape, ← leavesOf_below shape]
              exact ih _ _ (by rw [weight_append]; omega)
          | ignored =>
              rw [step_of_ignored mode rest found shape, Tree.leavesAt_of_ignored shape,
                List.nil_append]
              exact ih rest found (by omega)

/-- The walk comes to every leaf of its stack before which none is refused. By then exactly the
leaves before it have been entered, and exactly those after it are still to come. -/
theorem run_to_leaf (mode : CollectMode) {pending : List Place} {before after : List Tree.Leaf}
    {leaf : Tree.Leaf} (split : leavesOf pending = before ++ leaf :: after)
    (kept : ∀ earlier ∈ before, earlier.isRefused mode = false) (found : RawTokens) :
    ∃ n place rest,
      run mode n ⟨pending, found⟩ =
        .ok ⟨place :: rest, found.insertAll (before.map Tree.Leaf.token)⟩ ∧
      n < weight pending ∧ place.path = leaf.path ∧
      Tree.classify place.node = .leaf leaf.value ∧ leavesOf rest = after := by
  -- Every step takes weight off the stack.
  induction bound : weight pending using Nat.strongRecOn
    generalizing pending before found with
  | ind w ih =>
      subst bound
      cases pending with
      | nil => exact absurd split (by simp [leavesOf])
      | cons place rest =>
          have positive := Json.size_pos place.node
          rw [leavesOf_cons] at split
          rw [weight_cons] at ih ⊢
          cases shape : Tree.classify place.node with
          | leaf value =>
              rw [Tree.leavesAt_of_leaf shape, List.singleton_append] at split
              cases before with
              | nil =>
                  obtain ⟨rfl, rfl⟩ := List.cons.inj split
                  exact ⟨0, place, rest, rfl, by omega, rfl, shape, rfl⟩
              | cons first others =>
                  obtain ⟨rfl, later⟩ := List.cons.inj split
                  obtain ⟨n, target, beyond, reached, few, there⟩ :=
                    ih _ (by omega) later (fun earlier h => kept earlier (List.mem_cons_of_mem _ h))
                      (found.insert (joinPath place.path) value) rfl
                  refine ⟨n + 1, target, beyond, ?_, by omega, there⟩
                  rw [run, step_of_leaf mode rest found shape,
                    kept _ List.mem_cons_self, if_neg Bool.false_ne_true]
                  exact reached
          | branch wrapper members =>
              have lighter := @weight_below_lt place.path _ _ _ shape
              rw [← leavesOf_below shape] at split
              obtain ⟨n, target, beyond, reached, few, there⟩ :=
                ih _ (by rw [weight_append]; omega) split kept found rfl
              rw [weight_append] at few
              refine ⟨n + 1, target, beyond, ?_, by omega, there⟩
              rw [run, step_of_branch mode rest found shape]
              exact reached
          | ignored =>
              rw [Tree.leavesAt_of_ignored shape, List.nil_append] at split
              obtain ⟨n, target, beyond, reached, few, there⟩ :=
                ih _ (by omega) split kept found rfl
              refine ⟨n + 1, target, beyond, ?_, by omega, there⟩
              rw [run, step_of_ignored mode rest found shape]
              exact reached

end Collection

open Collection in
/-- **The walk and the recursion.** The leaves of a tree are given by recursion: an object with a
value is a leaf, any other object has the leaves of its `tokens` member under its own path and then
those of its other object members, containers left out, and nothing else has leaves. The walk of any
tree ends within as many steps as the tree has values. It enters the leaves in the order of the
recursion, where a name that comes again keeps its place and takes the later value, and it fails
exactly if the mode is strict and some leaf has an array or an object for its value: then at the
first such leaf, with exactly the leaves before it entered. -/
theorem collectAt_refines_leaves (mode : CollectMode) (path : List String) (tree : Json) :
    (∀ above members, Tree.leavesAt above (.object members) =
      match OrderedMap.lookup "value" members with
      | some value => [⟨above, value⟩]
      | none =>
          ((OrderedMap.lookup "tokens" members).filter Json.isObject).toList.flatMap
              (Tree.leavesAt above) ++
            (members.filter fun member => member.2.isObject && member.1 != "tokens" &&
              !(["extensions", "$metadata", "$themes"].contains member.1)).flatMap fun member =>
                Tree.leavesAt (above ++ [member.1]) member.2) ∧
    (∀ above node, node.isObject = false → Tree.leavesAt above node = []) ∧
    run mode tree.size (start path tree) =
      (collectAt mode path tree).map (fun tokens => ⟨[], tokens⟩) ∧
    collectAt mode path tree =
      (match (Tree.leavesAt path tree).find? fun leaf =>
          mode == .strict && leaf.value.isStructured with
      | some leaf => .error (.malformedLeaf leaf.path leaf.value.kind)
      | none => .ok (OrderedMap.ofList
          ((Tree.leavesAt path tree).map fun leaf => (joinPath leaf.path, leaf.value)))) ∧
    (OrderedMap.ofList ((Tree.leavesAt path tree).map Tree.Leaf.token)).keys =
      ((Tree.leavesAt path tree).map Tree.Leaf.collectedName).eraseDups ∧
    (∀ name, (OrderedMap.ofList ((Tree.leavesAt path tree).map Tree.Leaf.token)).get? name =
      ((Tree.leavesAt path tree).findRev? fun leaf => leaf.collectedName == name).map
        Tree.Leaf.value) ∧
    ∀ before leaf after, Tree.leavesAt path tree = before ++ leaf :: after →
      (∀ earlier ∈ before, (mode == .strict && earlier.value.isStructured) = false) →
      ∃ n place rest,
        run mode n (start path tree) =
          .ok ⟨place :: rest, OrderedMap.ofList (before.map Tree.Leaf.token)⟩ ∧
        n < tree.size ∧ place.path = leaf.path ∧
        Tree.classify place.node = .leaf leaf.value ∧ leavesOf rest = after ∧
        ((mode == .strict && leaf.value.isStructured) = true →
          run mode (n + 1) (start path tree) =
            .error (.malformedLeaf leaf.path leaf.value.kind)) := by
  have whole : leavesOf (start path tree).pending = Tree.leavesAt path tree := by
    simp [start, leavesOf]
  have heavy : weight (start path tree).pending = tree.size := by
    simp [start, weight]
  refine ⟨Tree.leavesAt_object, fun above node other => Tree.leavesAt_eq_nil other above, ?_,
    collectAt_eq_gather mode path tree, Tree.keys_collected _, Tree.get?_collected _, ?_⟩
  · rw [collectAt_eq_gather, ← whole]
    exact run_eq_gather mode tree.size _ _ (Nat.le_of_eq heavy)
  · intro before leaf after split kept
    obtain ⟨n, place, rest, reached, few, samePath, shape, later⟩ :=
      run_to_leaf mode (whole.trans split) kept .empty
    have there : run mode n (start path tree) =
        .ok ⟨place :: rest, OrderedMap.ofList (before.map Tree.Leaf.token)⟩ := reached
    refine ⟨n, place, rest, there, heavy ▸ few, samePath, shape, later, ?_⟩
    intro refused
    have failing : step mode ⟨place :: rest, OrderedMap.ofList (before.map Tree.Leaf.token)⟩ =
        .error leaf.refusal := by
      rw [step_of_leaf mode rest _ shape, samePath]
      exact if_pos refused
    rw [run_add mode n 1, there]
    show (step mode _).bind (run mode 0) = _
    rw [failing]
    rfl

end DesignTokens
