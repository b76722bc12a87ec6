import DesignTokens.Collection
import DesignTokens.Proofs.OrderedMap.Insertion

/-!
# The leaves of a token tree

The leaves of a token tree by recursion on the tree, as the second side for the walk with a stack
of places. The walk takes the leaves in the order of the recursion and stops at the first one that
its mode refuses (`collectAt_eq_gather`).
-/

set_option autoImplicit false

namespace DesignTokens

namespace Tree

/-- A leaf: the keys on the way to it, wrappers left out, and its value. -/
structure Leaf where
  path : List String
  value : Json

namespace Leaf

/-- The name under which a leaf is collected. -/
def collectedName (leaf : Leaf) : String := joinPath leaf.path

/-- The final name of a leaf; none if nothing of its path can be kept. -/
def name? (leaf : Leaf) : Option CanonicalName := CanonicalName.derive? leaf.collectedName

/-- Whether a leaf has a final name. -/
def hasName (name : CanonicalName) (leaf : Leaf) : Bool := leaf.name? == some name

theorem hasName_iff (name : CanonicalName) (leaf : Leaf) :
    leaf.hasName name = true ↔ leaf.name? = some name := by
  rw [hasName, beq_iff_eq]

/-- A leaf as an entry of the collected tokens. -/
def token (leaf : Leaf) : String × Json := (leaf.collectedName, leaf.value)

/-- Whether a leaf ends a collection. -/
def isRefused (mode : CollectMode) (leaf : Leaf) : Bool :=
  mode == .strict && leaf.value.isStructured

/-- The error of a leaf that ends a collection. -/
def refusal (leaf : Leaf) : CollectError := .malformedLeaf leaf.path leaf.value.kind

end Leaf

/-! ## Leaves by recursion -/

mutual

/-- The leaves of a tree whose root has a path, depth first. -/
def leavesAt (path : List String) : Json → List Leaf
  | .object members =>
      match OrderedMap.lookup valueKey members with
      | some value => [⟨path, value⟩]
      | none => wrapperLeaves path members ++ childLeaves path members
  | _ => []
termination_by structural tree => tree

/-- The leaves of the wrapper among the members of a branch. -/
def wrapperLeaves (path : List String) : List (String × Json) → List Leaf
  | [] => []
  | (key, node) :: rest =>
      if key = wrapperKey then leavesAt path node else wrapperLeaves path rest
termination_by structural members => members

/-- The leaves of the children among the members of a branch. -/
def childLeaves (path : List String) : List (String × Json) → List Leaf
  | [] => []
  | (key, node) :: rest =>
      if isChild key node then leavesAt (path ++ [key]) node ++ childLeaves path rest
      else childLeaves path rest
termination_by structural members => members

end

/-- The leaves of a document. -/
def leaves (tree : Json) : List Leaf := leavesAt [] tree

theorem leavesAt_eq_nil {node : Json} (h : node.isObject = false) (path : List String) :
    leavesAt path node = [] := by
  cases node <;> simp [leavesAt, Json.isObject] at h ⊢

theorem wrapperLeaves_eq (path : List String) (members : List (String × Json)) :
    wrapperLeaves path members = (wrapper? members).toList.flatMap (leavesAt path) := by
  induction members with
  | nil => rfl
  | cons member rest ih =>
      obtain ⟨key, node⟩ := member
      by_cases h : key = wrapperKey
      · cases object : node.isObject
        · simp [wrapperLeaves, wrapper?, OrderedMap.lookup, h, object, leavesAt_eq_nil object]
        · simp [wrapperLeaves, wrapper?, OrderedMap.lookup, h, Option.filter_some, object]
      · simpa [wrapperLeaves, wrapper?, OrderedMap.lookup, h] using ih

theorem childLeaves_eq (path : List String) (members : List (String × Json)) :
    childLeaves path members =
      (children members).flatMap fun child => leavesAt (path ++ [child.1]) child.2 := by
  induction members with
  | nil => rfl
  | cons member rest ih =>
      obtain ⟨key, node⟩ := member
      by_cases h : isChild key node
      · simp [childLeaves, children, h, ih]
      · simp [childLeaves, children, h, ih]

/-- The leaves of an object: its own if it has a value, or else those of its wrapper and then those
of its children, in order. -/
theorem leavesAt_object (path : List String) (members : List (String × Json)) :
    leavesAt path (.object members) =
      match OrderedMap.lookup valueKey members with
      | some value => [⟨path, value⟩]
      | none =>
          (wrapper? members).toList.flatMap (leavesAt path) ++
            (children members).flatMap fun child => leavesAt (path ++ [child.1]) child.2 := by
  simp only [leavesAt, wrapperLeaves_eq, childLeaves_eq]

/-! ## Leaves under further keys -/

/-- A leaf with further keys before its path. -/
def Leaf.under (start : List String) (leaf : Leaf) : Leaf := ⟨start ++ leaf.path, leaf.value⟩

mutual

/-- The keys before a place stand before the paths of its leaves. -/
theorem leavesAt_append (start path : List String) :
    ∀ tree : Json, leavesAt (start ++ path) tree = (leavesAt path tree).map (Leaf.under start)
  | .object members => by
      rw [leavesAt, leavesAt]
      cases OrderedMap.lookup valueKey members with
      | some value => rfl
      | none =>
          rw [wrapperLeaves_append start path members, childLeaves_append start path members,
            List.map_append]
  | .array _ | .string _ | .number _ | .bool _ | .null => rfl
termination_by structural tree => tree

theorem wrapperLeaves_append (start path : List String) :
    ∀ members : List (String × Json),
      wrapperLeaves (start ++ path) members = (wrapperLeaves path members).map (Leaf.under start)
  | [] => rfl
  | (key, node) :: rest => by
      rw [wrapperLeaves, wrapperLeaves]
      split
      · exact leavesAt_append start path node
      · exact wrapperLeaves_append start path rest
termination_by structural members => members

theorem childLeaves_append (start path : List String) :
    ∀ members : List (String × Json),
      childLeaves (start ++ path) members = (childLeaves path members).map (Leaf.under start)
  | [] => rfl
  | (key, node) :: rest => by
      rw [childLeaves, childLeaves]
      split
      · rw [List.append_assoc, leavesAt_append start (path ++ [key]) node,
          childLeaves_append start path rest, List.map_append]
      · exact childLeaves_append start path rest
termination_by structural members => members

end

/-! ## Leaves by the kind of a place -/

theorem leavesAt_of_leaf {node value : Json} (h : classify node = .leaf value)
    (path : List String) : leavesAt path node = [⟨path, value⟩] := by
  obtain ⟨members, rfl, found⟩ := classify_eq_leaf h
  simp [leavesAt, found]

theorem leavesAt_of_ignored {node : Json} (h : classify node = .ignored) (path : List String) :
    leavesAt path node = [] := by
  apply leavesAt_eq_nil
  unfold classify at h
  split at h
  · split at h <;> exact absurd h (by simp)
  · next other => cases node <;> simp_all [Json.isObject]

/-- The leaves of a branch are those of its wrapper and then those of its children, in order. -/
theorem leavesAt_of_branch {node : Json} {wrapper : Option Json} {members : List (String × Json)}
    (h : classify node = .branch wrapper members) (path : List String) :
    leavesAt path node = wrapper.toList.flatMap (leavesAt path) ++
      (children members).flatMap fun child => leavesAt (path ++ [child.1]) child.2 := by
  have noValue := lookup_valueKey_of_branch h
  obtain ⟨rfl, rfl⟩ := classify_eq_branch h
  simp only [leavesAt_object, noValue]

end Tree

namespace Collection

/-! ## The walk and the leaves -/

/-- The leaves at and below the places of a stack. -/
def leavesOf (pending : List Place) : List Tree.Leaf :=
  pending.flatMap fun place => Tree.leavesAt place.path place.node

/-- Adds the tokens of leaves to those found so far; the first refused leaf ends it. -/
def gather (mode : CollectMode) (found : RawTokens) (leaves : List Tree.Leaf) :
    Except CollectError RawTokens :=
  match leaves.find? (Tree.Leaf.isRefused mode) with
  | some leaf => .error leaf.refusal
  | none => .ok (found.insertAll (leaves.map Tree.Leaf.token))

theorem gather_cons (mode : CollectMode) (found : RawTokens) (leaf : Tree.Leaf)
    (rest : List Tree.Leaf) :
    gather mode found (leaf :: rest) =
      if leaf.isRefused mode then .error leaf.refusal
      else gather mode (found.insert leaf.collectedName leaf.value) rest := by
  cases refused : leaf.isRefused mode with
  | true => simp [gather, refused]
  | false =>
      simp only [gather, List.find?_cons, refused, List.map_cons, OrderedMap.insertAll_cons]
      rfl

theorem leavesOf_cons (place : Place) (rest : List Place) :
    leavesOf (place :: rest) = Tree.leavesAt place.path place.node ++ leavesOf rest := rfl

/-- What stands below a branch has the leaves of the branch. -/
theorem leavesOf_below {node : Json} {wrapper : Option Json} {members : List (String × Json)}
    (h : Tree.classify node = .branch wrapper members) (path : List String) (rest : List Place) :
    leavesOf (below path wrapper members ++ rest) = Tree.leavesAt path node ++ leavesOf rest := by
  rw [Tree.leavesAt_of_branch h]
  cases wrapper <;> simp [leavesOf, below, List.flatMap_map]

/-- The walk gathers the leaves of its stack. -/
theorem walk_eq_gather (mode : CollectMode) (pending : List Place) (found : RawTokens) :
    walk mode pending found = gather mode found (leavesOf pending) := by
  fun_induction walk mode pending found with
  | case1 found => rfl
  | case2 found place rest value shape refused =>
      rw [leavesOf_cons, Tree.leavesAt_of_leaf shape, List.singleton_append, gather_cons]
      simp [Tree.Leaf.isRefused, refused, Tree.Leaf.refusal]
  | case3 found place rest value shape kept ih =>
      rw [ih, leavesOf_cons, Tree.leavesAt_of_leaf shape, List.singleton_append, gather_cons]
      have notRefused : Tree.Leaf.isRefused mode ⟨place.path, value⟩ = false := by
        simpa [Tree.Leaf.isRefused] using kept
      rw [notRefused]
      rfl
  | case4 found place rest wrapper members shape ih =>
      rw [ih, leavesOf_below shape, leavesOf_cons]
  | case5 found place rest shape ih =>
      rw [ih, leavesOf_cons, Tree.leavesAt_of_ignored shape, List.nil_append]

end Collection

open Collection in
/-- Collecting a tree gathers its leaves, depth first. -/
theorem collectAt_eq_gather (mode : CollectMode) (start : List String) (tree : Json) :
    collectAt mode start tree = gather mode .empty (Tree.leavesAt start tree) := by
  rw [collectAt, walk_eq_gather]
  simp [leavesOf]

/-! ## The map of the leaves -/

namespace Tree

/-- The collected names of a document are those of its leaves, in the order of first appearance. -/
theorem keys_collected (leaves : List Leaf) :
    (OrderedMap.ofList (leaves.map Leaf.token)).keys =
      (leaves.map Leaf.collectedName).eraseDups := by
  rw [OrderedMap.keys_ofList, List.map_map]
  congr 1

/-- The value under a collected name is that of its last leaf. -/
theorem get?_collected (leaves : List Leaf) (spelling : String) :
    (OrderedMap.ofList (leaves.map Leaf.token)).get? spelling =
      (leaves.findRev? fun leaf => leaf.collectedName == spelling).map Leaf.value := by
  rw [OrderedMap.get?_ofList]
  simp only [List.findRev?_eq_find?_reverse, ← List.map_reverse, List.find?_map, Option.map_map]
  congr 1

end Tree

end DesignTokens
