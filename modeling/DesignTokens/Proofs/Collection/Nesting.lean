import DesignTokens.Proofs.Collection.Gaps

/-!
# Objects around a tree and wrappers in it

Keys before the names of a tree can be given to the collection, or as objects around the tree, one
for each key: both ways give the same (`leavesAt_nest`). A wrapper around an object that the walk
comes to adds no key and gives the same as the object alone (`sameLeaves_wrapped`). This holds of
what is collected and of the error that ends a collection
(`nesting_adds_keys_and_wrapping_none`).
-/

set_option autoImplicit false

namespace DesignTokens

namespace Tree

/-! ## Objects around a tree -/

/-- A tree inside objects with one member each, the first key outermost. -/
def nest : List String → Json → Json
  | [], tree => tree
  | key :: inner, tree => .object [(key, nest inner tree)]

/-- Whether a member of a branch is a child of it if it is an object. -/
def NamesChild (key : String) : Prop :=
  key ≠ valueKey ∧ key ≠ wrapperKey ∧ isReserved key = false

theorem namesChild_iff (key : String) :
    NamesChild key ↔ key ∉ ["value", "tokens", "extensions", "$metadata", "$themes"] := by
  simp [NamesChild, valueKey, wrapperKey, isReserved, reservedKeys]

/-- The leaves of an object with one member are those of the member, under its key. -/
theorem leavesAt_single {key : String} (ordinary : NamesChild key) (path : List String)
    (node : Json) : leavesAt path (.object [(key, node)]) = leavesAt (path ++ [key]) node := by
  obtain ⟨noValue, noWrapper, notReserved⟩ := ordinary
  have absent : OrderedMap.lookup valueKey [(key, node)] = none := by
    rw [OrderedMap.lookup, if_neg noValue, OrderedMap.lookup]
  rw [leavesAt, absent]
  cases object : node.isObject with
  | false =>
      -- What is no object has no leaves of its own, and as a member it is no child.
      simp [wrapperLeaves, childLeaves, noWrapper, isChild, object, leavesAt_eq_nil object]
  | true => simp [wrapperLeaves, childLeaves, noWrapper, isChild, object, notReserved]

theorem leavesAt_nest {keys : List String} (ordinary : ∀ key ∈ keys, NamesChild key)
    (path : List String) (tree : Json) :
    leavesAt path (nest keys tree) = leavesAt (path ++ keys) tree := by
  induction keys generalizing path with
  | nil => rw [List.append_nil, nest]
  | cons key inner ih =>
      rw [nest, leavesAt_single (ordinary key List.mem_cons_self),
        ih (fun other member => ordinary other (List.mem_cons_of_mem _ member)), List.append_assoc,
        List.singleton_append]

/-! ## Wrappers around an object -/

theorem sameLeaves_wrapped (members : List (String × Json)) :
    SameLeaves (.object [(wrapperKey, .object members)]) (.object members) := by
  refine ⟨rfl, fun path => ?_⟩
  have noValue : OrderedMap.lookup valueKey [(wrapperKey, Json.object members)] = none := by
    rw [OrderedMap.lookup, if_neg (by decide), OrderedMap.lookup]
  have noChild : isChild wrapperKey (.object members) = false := by
    simp [isChild]
  rw [leavesAt, noValue]
  simp [wrapperLeaves, childLeaves, noChild]

end Tree

open Collection in
/-- **Keys by nesting, no keys by wrapping.** Collecting a tree under keys that name children gives
the same as collecting the tree inside one object for each key, be it tokens or an error. Every
place that the walk of a tree comes to stands in a gap of the tree, with the keys on the way to the
gap in its path; and if the object in a gap is replaced by an object with it as the only member,
`tokens`, then names, values, order and error stay the same. -/
theorem nesting_adds_keys_and_wrapping_none (mode : CollectMode) (tree : Json) :
    (∀ keys : List String,
      (∀ key ∈ keys, key ∉ ["value", "tokens", "extensions", "$metadata", "$themes"]) →
      collectAt mode keys tree = collect mode (Tree.nest keys tree)) ∧
    (∀ path n place rest found,
      run mode n (start path tree) = .ok ⟨place :: rest, found⟩ →
      ∃ gap : Tree.Gap, gap.fill place.node = tree ∧ place.path = path ++ gap.keys) ∧
    ∀ (path : List String) (gap : Tree.Gap) (members : List (String × Json)),
      gap.fill (.object members) = tree →
      collectAt mode path (gap.fill (.object [("tokens", .object members)])) =
        collectAt mode path tree := by
  refine ⟨?_, ?_, ?_⟩
  · intro keys ordinary
    have named : ∀ key ∈ keys, Tree.NamesChild key := fun key member =>
      (Tree.namesChild_iff key).2 (ordinary key member)
    rw [collect, collectAt_eq_gather, collectAt_eq_gather, Tree.leavesAt_nest named,
      List.nil_append]
  · intro path n place rest found ran
    obtain ⟨keys, samePath, reached⟩ := reaches_of_run ran
    obtain ⟨gap, filled, sameKeys⟩ := reached.exists_gap
    exact ⟨gap, filled, by rw [samePath, sameKeys]⟩
  · rintro path gap members rfl
    exact ((Tree.sameLeaves_wrapped members).fill gap).collectAt_eq mode path

/-- A malformed leaf inside objects with odd keys, one of them wrapped: each way gives the same
error. -/
theorem nesting_of_odd_keys :
    (∀ key ∈ ["", "b.c", " "], key ∉ ["value", "tokens", "extensions", "$metadata", "$themes"]) ∧
    collectAt .strict ["", "b.c", " "] (.object [("a", .object [("value", .array [])])]) =
      .error (.malformedLeaf ["", "b.c", " ", "a"] .array) ∧
    collectAt .strict ["", "b.c", " "] (.object [("a", .object [("value", .array [])])]) =
      collect .strict
        (Tree.nest ["", "b.c", " "] (.object [("a", .object [("value", .array [])])])) ∧
    collectAt .strict ["", "b.c", " "]
        (.object [("a", .object [("tokens", .object [("value", .array [])])])]) =
      collectAt .strict ["", "b.c", " "] (.object [("a", .object [("value", .array [])])]) := by
  have alike := nesting_adds_keys_and_wrapping_none .strict
    (.object [("a", .object [("value", .array [])])])
  refine ⟨by decide, ?_, alike.1 _ (by decide), ?_⟩
  · rw [collectAt_eq_gather]
    rfl
  · exact alike.2.2 _ [⟨[], "a", [], by decide⟩] [("value", .array [])] rfl

end DesignTokens
