import DesignTokens.Json.Value

/-!
# Token trees

How a JSON value is read as a tree of design tokens. An object with a `value` member is a leaf and
holds one token. Any other object is a branch: its `tokens` member, if that is an object, stands
for the branch itself, and its other object members are its children, except for the containers
that never hold tokens. Arrays and scalars hold nothing.
-/

set_option autoImplicit false

namespace DesignTokens

namespace Tree

/-- The member that marks an object as a leaf. -/
def valueKey : String := "value"

/-- The member whose contents belong to the enclosing branch. -/
def wrapperKey : String := "tokens"

/-- The containers that never hold tokens. -/
def reservedKeys : List String := ["extensions", "$metadata", "$themes"]

/-- Whether a key names a container that never holds tokens. -/
def isReserved (key : String) : Bool := reservedKeys.contains key

/-- A place in a token tree. -/
inductive Node where
  | leaf (value : Json)
  | branch (wrapper : Option Json) (members : List (String × Json))
  | ignored

/-- The `tokens` member, if it is an object. -/
def wrapper? (members : List (String × Json)) : Option Json :=
  (OrderedMap.lookup wrapperKey members).filter Json.isObject

/-- Whether a member of a branch is a child of it. -/
def isChild (key : String) (value : Json) : Bool :=
  value.isObject && key != wrapperKey && !isReserved key

/-- The members of a branch that are its children, in order. -/
def children (members : List (String × Json)) : List (String × Json) :=
  members.filter fun member => isChild member.1 member.2

/-- Reads a JSON value as a place in a token tree. -/
def classify : Json → Node
  | .object members =>
      match OrderedMap.lookup valueKey members with
      | some value => .leaf value
      | none => .branch (wrapper? members) members
  | _ => .ignored

/-- The children of a place. -/
def Node.children : Node → List (String × Json)
  | .branch _ members => Tree.children members
  | _ => []

theorem classify_eq_branch {node : Json} {wrapper : Option Json}
    {members : List (String × Json)} (h : classify node = .branch wrapper members) :
    node = .object members ∧ wrapper = wrapper? members := by
  unfold classify at h
  split at h
  · split at h
    · exact absurd h (by simp)
    · simp only [Node.branch.injEq] at h
      obtain ⟨rfl, rfl⟩ := h
      exact ⟨rfl, rfl⟩
  · exact absurd h (by simp)

theorem lookup_valueKey_of_branch {node : Json} {wrapper : Option Json}
    {members : List (String × Json)} (h : classify node = .branch wrapper members) :
    OrderedMap.lookup valueKey members = none := by
  obtain ⟨rfl, -⟩ := classify_eq_branch h
  cases found : OrderedMap.lookup valueKey members with
  | none => rfl
  | some value => simp [classify, found] at h

theorem classify_eq_leaf {node value : Json} (h : classify node = .leaf value) :
    ∃ members, node = .object members ∧ OrderedMap.lookup valueKey members = some value := by
  unfold classify at h
  split at h
  · next members =>
      cases found : OrderedMap.lookup valueKey members with
      | none => simp [found] at h
      | some other =>
          simp only [found, Node.leaf.injEq] at h
          exact ⟨members, rfl, h ▸ found⟩
  · exact absurd h (by simp)

/-! ## Sizes of the parts of a branch -/

theorem sizeOfMembers_children_le (members : List (String × Json)) :
    Json.sizeOfMembers (children members) ≤ Json.sizeOfMembers members := by
  induction members with
  | nil => simp [children]
  | cons member rest ih =>
      obtain ⟨k, a⟩ := member
      simp only [children, List.filter_cons] at ih ⊢
      split <;> simp [Json.sizeOfMembers] <;> omega

/-- The wrapper and the children are different members, so together they are no larger than all
members. -/
theorem size_wrapper_add_children_le {wrapper : Json} {members : List (String × Json)}
    (h : OrderedMap.lookup wrapperKey members = some wrapper) :
    wrapper.size + Json.sizeOfMembers (children members) ≤ Json.sizeOfMembers members := by
  induction members with
  | nil => simp [OrderedMap.lookup] at h
  | cons member rest ih =>
      obtain ⟨k, a⟩ := member
      by_cases hk : k = wrapperKey
      · simp only [OrderedMap.lookup, hk, if_true, Option.some.injEq] at h
        subst h
        have skipped : isChild k a = false := by simp [isChild, hk]
        have := sizeOfMembers_children_le rest
        simp only [children] at this
        simp only [children, List.filter_cons, skipped, Json.sizeOfMembers]
        simp only [Bool.false_eq_true, if_false]
        omega
      · simp only [OrderedMap.lookup, hk, if_false] at h
        have := ih h
        simp only [children, List.filter_cons] at this ⊢
        split <;> simp [Json.sizeOfMembers] <;> omega

end Tree

end DesignTokens
