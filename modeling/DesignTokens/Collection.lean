import DesignTokens.Tree
import DesignTokens.Name

/-!
# Collecting the tokens of a tree

A token tree is walked depth first with a stack of places that are still to visit. Each leaf gives
a token, named by the keys on the way to it. The wrapper of a branch is visited under the name of
the branch and before its children.

A token whose value is an array or an object ends a strict collection with an error and is kept by
a permissive one.
-/

set_option autoImplicit false

namespace DesignTokens

/-- What happens at a leaf whose value is an array or an object. -/
inductive CollectMode where
  | strict
  | permissive
deriving DecidableEq, Repr, Inhabited

/-- Why a tree cannot be collected: a leaf's value, at a path of keys, is not a scalar. -/
inductive CollectError where
  | malformedLeaf (path : List String) (kind : Json.Kind)
deriving DecidableEq, Repr

/-- The sentence shown for a collection error. -/
def CollectError.message : CollectError → String
  | .malformedLeaf path kind =>
      "malformed leaf at " ++ String.intercalate "." path ++ ": value is " ++ kind.name ++
        ", expected a scalar"

/-- The tokens of one tree by their collected names, in the order of first appearance. -/
abbrev RawTokens := OrderedMap String Json

namespace Collection

/-- A place that is still to visit, with the keys on the way to it. -/
structure Place where
  path : List String
  node : Json

/-- Number of values in the places of a stack. -/
def weight : List Place → Nat
  | [] => 0
  | place :: rest => place.node.size + weight rest

/-- The places below a branch: its wrapper under the same path, then its children. -/
def below (path : List String) (wrapper : Option Json) (members : List (String × Json)) :
    List Place :=
  (wrapper.map fun node => ⟨path, node⟩).toList ++
    (Tree.children members).map fun child => ⟨path ++ [child.1], child.2⟩

theorem weight_append (first second : List Place) :
    weight (first ++ second) = weight first + weight second := by
  induction first with
  | nil => simp [weight]
  | cons place rest ih => simp [weight, ih]; omega

theorem weight_map_children (path : List String) (members : List (String × Json)) :
    weight (members.map fun child => ⟨path ++ [child.1], child.2⟩) =
      Json.sizeOfMembers members := by
  induction members with
  | nil => rfl
  | cons member rest ih =>
      obtain ⟨key, value⟩ := member
      simp [weight, Json.sizeOfMembers, ih]

theorem weight_below_le (path : List String) (members : List (String × Json)) :
    weight (below path (Tree.wrapper? members) members) ≤ Json.sizeOfMembers members := by
  rw [below, weight_append, weight_map_children]
  cases h : Tree.wrapper? members with
  | none =>
      have := Tree.sizeOfMembers_children_le members
      simp only [Option.map_none, Option.toList_none, weight]
      omega
  | some wrapper =>
      have := Tree.size_wrapper_add_children_le (Option.filter_eq_some_iff.1 h).1
      simp only [Option.map_some, Option.toList_some, weight]
      omega

/-- The places below a branch weigh less than the branch. -/
theorem weight_below_lt {path : List String} {node : Json} {wrapper : Option Json}
    {members : List (String × Json)} (h : Tree.classify node = .branch wrapper members) :
    weight (below path wrapper members) < node.size := by
  obtain ⟨rfl, rfl⟩ := Tree.classify_eq_branch h
  have := weight_below_le path members
  simp only [Json.size]
  omega

/-- Visits the places of a stack, first to last, and adds their tokens to those found so far. -/
def walk (mode : CollectMode) (pending : List Place) (found : RawTokens) :
    Except CollectError RawTokens :=
  match pending with
  | [] => .ok found
  | place :: rest =>
      match _shape : Tree.classify place.node with
      | .leaf value =>
          if mode = .strict ∧ value.isStructured then
            .error (.malformedLeaf place.path value.kind)
          else walk mode rest (found.insert (joinPath place.path) value)
      -- What is below comes first, so that the walk is depth first.
      | .branch wrapper members => walk mode (below place.path wrapper members ++ rest) found
      | .ignored => walk mode rest found
termination_by weight pending
decreasing_by
  · have := Json.size_pos place.node
    simp only [weight]
    omega
  · have := @weight_below_lt place.path _ _ _ _shape
    simp only [weight, weight_append]
    omega
  · have := Json.size_pos place.node
    simp only [weight]
    omega

end Collection

/-- The tokens of a tree whose names start with the keys of a prefix. -/
def collectAt (mode : CollectMode) (start : List String) (tree : Json) :
    Except CollectError RawTokens :=
  Collection.walk mode [⟨start, tree⟩] .empty

/-- The tokens of a tree. -/
def collect (mode : CollectMode) (tree : Json) : Except CollectError RawTokens :=
  collectAt mode [] tree

end DesignTokens
