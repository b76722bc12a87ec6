import DesignTokens.Proofs.Collection.Reached

/-!
# Trees with a gap

A tree with a gap is given by the objects around the gap, each with the member that leads to the
gap. The gap lies inside no value: no member on the way is the value of its object. Two nodes with
the same leaves, both of them objects or none, have the same leaves in every gap
(`SameLeaves.fill`), and what is reached in a tree stands in a gap of it (`Reaches.exists_gap`).
-/

set_option autoImplicit false

namespace DesignTokens.Tree

/-! ## Leaves of a list of members -/

section Members

variable (path : List String)

theorem wrapperLeaves_concat (first second : List (String × Json)) :
    wrapperLeaves path (first ++ second) =
      if wrapperKey ∈ first.map Prod.fst then wrapperLeaves path first
      else wrapperLeaves path second := by
  induction first with
  | nil => simp
  | cons member rest ih =>
      obtain ⟨key, node⟩ := member
      by_cases same : key = wrapperKey
      · simp [wrapperLeaves, same]
      · simp only [List.cons_append, wrapperLeaves, same, if_false, ih, List.map_cons,
          List.mem_cons, Ne.symm same, false_or]

theorem childLeaves_concat (first second : List (String × Json)) :
    childLeaves path (first ++ second) = childLeaves path first ++ childLeaves path second := by
  simp [childLeaves_eq, children]

end Members

/-! ## Nodes that can stand for one another -/

/-- Two nodes with the same leaves under every path, both of them objects or none. -/
structure SameLeaves (first second : Json) : Prop where
  isObject_eq : first.isObject = second.isObject
  leavesAt_eq : ∀ path, leavesAt path first = leavesAt path second

theorem SameLeaves.symm {first second : Json} (same : SameLeaves first second) :
    SameLeaves second first :=
  ⟨same.isObject_eq.symm, fun path => (same.leavesAt_eq path).symm⟩

theorem SameLeaves.trans {first second third : Json} (same : SameLeaves first second)
    (further : SameLeaves second third) : SameLeaves first third :=
  ⟨same.isObject_eq.trans further.isObject_eq,
    fun path => (same.leavesAt_eq path).trans (further.leavesAt_eq path)⟩

/-- Objects whose value, wrapper and children give the same have the same leaves. -/
theorem sameLeaves_object {first second : List (String × Json)}
    (value : OrderedMap.lookup valueKey first = OrderedMap.lookup valueKey second)
    (ofWrapper : ∀ path, wrapperLeaves path first = wrapperLeaves path second)
    (ofChildren : ∀ path, childLeaves path first = childLeaves path second) :
    SameLeaves (.object first) (.object second) := by
  refine ⟨rfl, fun path => ?_⟩
  rw [leavesAt, leavesAt, value, ofWrapper, ofChildren]

/-- A walk finds the same in trees with the same leaves. -/
theorem SameLeaves.collectAt_eq {first second : Json} (same : SameLeaves first second)
    (mode : CollectMode) (start : List String) :
    collectAt mode start first = collectAt mode start second := by
  rw [collectAt_eq_gather, collectAt_eq_gather, same.leavesAt_eq]

/-! ## Gaps -/

/-- An object with one member left open, which is not its value. -/
structure Frame where
  before : List (String × Json)
  key : String
  after : List (String × Json)
  outside : key ≠ valueKey

namespace Frame

/-- The object with a node as the open member. -/
def close (frame : Frame) (node : Json) : Json :=
  .object (frame.before ++ (frame.key, node) :: frame.after)

theorem sameLeaves_close (frame : Frame) {first second : Json} (same : SameLeaves first second) :
    SameLeaves (frame.close first) (frame.close second) := by
  apply sameLeaves_object
  · -- The open member is not the value, so that both objects are leaves or both are branches.
    rw [OrderedMap.lookup_append, OrderedMap.lookup_append, OrderedMap.lookup, OrderedMap.lookup,
      if_neg frame.outside, if_neg frame.outside]
  · intro path
    simp only [wrapperLeaves_concat, wrapperLeaves, same.leavesAt_eq]
  · intro path
    have sameChild : isChild frame.key first = isChild frame.key second := by
      simp only [isChild, same.isObject_eq]
    simp only [childLeaves_concat, childLeaves, sameChild, same.leavesAt_eq]

end Frame

/-- A tree with a gap: the objects around the gap, the outermost first. -/
abbrev Gap := List Frame

namespace Gap

/-- The tree with a node in the gap. -/
def fill (gap : Gap) (node : Json) : Json := gap.foldr Frame.close node

/-- The keys on the way to the gap, wrappers left out. -/
def keys (gap : Gap) : List String := (gap.map Frame.key).filter (· != wrapperKey)

end Gap

/-- Nodes with the same leaves have the same leaves in every gap. -/
theorem SameLeaves.fill {first second : Json} (same : SameLeaves first second) (gap : Gap) :
    SameLeaves (gap.fill first) (gap.fill second) := by
  induction gap with
  | nil => exact same
  | cons frame inner ih => exact frame.sameLeaves_close ih

theorem ne_valueKey_of_mem {members : List (String × Json)} {key : String} {node : Json}
    (noValue : OrderedMap.lookup valueKey members = none) (member : (key, node) ∈ members) :
    key ≠ valueKey := by
  rintro rfl
  exact (OrderedMap.lookup_eq_none_iff _ _).1 noValue (List.mem_map_of_mem member)

/-- What is reached in a tree stands in a gap of it. -/
theorem Reaches.exists_gap {tree node : Json} {keys : List String}
    (reached : Reaches tree keys node) : ∃ gap : Gap, gap.fill node = tree ∧ gap.keys = keys := by
  induction reached with
  | here node => exact ⟨[], rfl, rfl⟩
  | @wrapper members inner target keys noValue found _ ih =>
      obtain ⟨gap, filled, sameKeys⟩ := ih
      have member := OrderedMap.mem_of_lookup (Option.filter_eq_some_iff.1 found).1
      obtain ⟨before, after, rfl⟩ := List.append_of_mem member
      refine ⟨⟨before, wrapperKey, after, by decide⟩ :: gap, ?_, ?_⟩
      · show Frame.close _ (gap.fill target) = _
        rw [filled, Frame.close]
      · simpa [Gap.keys] using sameKeys
  | @child members key inner target keys noValue found _ ih =>
      obtain ⟨gap, filled, sameKeys⟩ := ih
      -- A branch has no value, so that the key of a child is not that of the value.
      obtain ⟨member, isChild⟩ := List.mem_filter.1 found
      have outside := ne_valueKey_of_mem noValue member
      have noWrapper : key ≠ wrapperKey := by
        rintro rfl
        simp [Tree.isChild] at isChild
      obtain ⟨before, after, rfl⟩ := List.append_of_mem member
      refine ⟨⟨before, key, after, outside⟩ :: gap, ?_, ?_⟩
      · show Frame.close _ (gap.fill target) = _
        rw [filled, Frame.close]
      · simpa [Gap.keys, noWrapper] using sameKeys

end DesignTokens.Tree
