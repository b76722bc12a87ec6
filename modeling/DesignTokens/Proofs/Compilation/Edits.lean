import DesignTokens.Proofs.Collection.Gaps
import DesignTokens.Proofs.Compilation.Survivors
import Mathlib.Data.List.Forall2
import Mathlib.Logic.Relation

/-!
# Data that is not read

Arrays and scalars where no value is read, the containers that never hold tokens, and whatever
stands beside a value may be changed at will: the leaves of the tree stay the same
(`Change.sameLeaves`), and so does all that is made of them
(`unread_data_makes_no_difference`).
-/

set_option autoImplicit false

namespace DesignTokens

namespace Tree

/-- A change of data that is not read, at one node. -/
inductive Change : Json → Json → Prop where
  /-- An array or a scalar becomes another array or scalar. -/
  | idle {first second : Json} (before : first.isObject = false)
      (after : second.isObject = false) : Change first second
  /-- Containers that never hold tokens become others; there may be none before or after. -/
  | container {old new : List (String × Json)} (before after : List (String × Json))
      (oldReserved : ∀ member ∈ old, isReserved member.1 = true)
      (newReserved : ∀ member ∈ new, isReserved member.1 = true) :
      Change (.object (before ++ old ++ after)) (.object (before ++ new ++ after))
  /-- An object with a value keeps the value, whatever becomes of its other members. -/
  | beside {old new : List (String × Json)} {value : Json}
      (before : OrderedMap.lookup valueKey old = some value)
      (after : OrderedMap.lookup valueKey new = some value) : Change (.object old) (.object new)

/-- Two trees that differ by one change, made inside no value. -/
def Edited (first second : Json) : Prop :=
  ∃ (gap : Gap) (old new : Json), Change old new ∧ gap.fill old = first ∧ gap.fill new = second

/-! ## Containers that never hold tokens -/

section Reserved

variable {members : List (String × Json)}
  (reserved : ∀ member ∈ members, isReserved member.1 = true)

include reserved

/-- No key that is read is reserved. -/
theorem notMem_keys_of_reserved (key : String) (read : isReserved key = false) :
    key ∉ members.map Prod.fst := by
  intro member
  obtain ⟨⟨other, node⟩, inside, rfl⟩ := List.mem_map.1 member
  have isReserved := reserved _ inside
  rw [read] at isReserved
  exact Bool.false_ne_true isReserved

theorem childLeaves_of_reserved (path : List String) : childLeaves path members = [] := by
  have noChild : children members = [] := by
    rw [children, List.filter_eq_nil_iff]
    intro member inside
    simp [isChild, reserved member inside]
  rw [childLeaves_eq, noChild, List.flatMap_nil]

/-- Without them an object has the same leaves. -/
theorem sameLeaves_without (before after : List (String × Json)) :
    SameLeaves (.object (before ++ members ++ after)) (.object (before ++ after)) := by
  have noWrapper := notMem_keys_of_reserved reserved wrapperKey (by decide)
  have noValue : OrderedMap.lookup valueKey members = none := by
    rw [OrderedMap.lookup_eq_none_iff]
    exact notMem_keys_of_reserved reserved valueKey (by decide)
  apply sameLeaves_object
  · simp only [OrderedMap.lookup_append, noValue, Option.or_none]
  · intro path
    simp only [List.append_assoc, wrapperLeaves_concat, noWrapper, if_false]
  · intro path
    simp only [childLeaves_concat, childLeaves_of_reserved reserved, List.append_nil]

end Reserved

/-- A change of data that is not read leaves the leaves as they are. -/
theorem Change.sameLeaves {first second : Json} (change : Change first second) :
    SameLeaves first second := by
  cases change with
  | idle before after =>
      refine ⟨before.trans after.symm, fun path => ?_⟩
      rw [leavesAt_eq_nil before, leavesAt_eq_nil after]
  | container before after oldReserved newReserved =>
      -- Both objects have the leaves of the one without these containers.
      have old := sameLeaves_without oldReserved before after
      have new := sameLeaves_without newReserved before after
      exact old.trans new.symm
  | beside before after =>
      -- An object with a value has one leaf, whatever wrapper and children it has besides.
      refine ⟨rfl, fun path => ?_⟩
      simp only [leavesAt_object, before, after]

/-- Edits of data that is not read change nothing of what is collected. -/
theorem collectAt_eq_of_edits {first second : Json}
    (edits : Relation.ReflTransGen Edited first second) (mode : CollectMode)
    (start : List String) : collectAt mode start first = collectAt mode start second := by
  induction edits with
  | refl => rfl
  | tail _ edit ih =>
      obtain ⟨gap, old, new, change, rfl, rfl⟩ := edit
      exact ih.trans ((change.sameLeaves.fill gap).collectAt_eq mode start)

end Tree

namespace Compilation

/-- Two load results that differ by edits of data that is not read. -/
inductive Edited : LoadResult → LoadResult → Prop where
  | failed (reason : SkippedDocument) : Edited (.error reason) (.error reason)
  | document (id : String) {first second : Json}
      (edits : Relation.ReflTransGen Tree.Edited first second) :
      Edited (.ok ⟨id, first⟩) (.ok ⟨id, second⟩)

theorem tokensOf_eq_of_edited (options : CompileOptions) {first second : LoadResult}
    (edited : Edited first second) : tokensOf options first = tokensOf options second := by
  cases edited with
  | failed reason => rfl
  | document id edits => simp only [tokensOf, collect, Tree.collectAt_eq_of_edits edits]

/-- **Unread data makes no difference.** Two trees that differ by any number of edits of data that
is not read give the same tokens or the same error, in both modes and under every start. Two lists
of load results that differ by such edits of their documents give the same stylesheet, tokens and
report. -/
theorem unread_data_makes_no_difference :
    (∀ first second : Json, Relation.ReflTransGen Tree.Edited first second →
      ∀ mode start, collectAt mode start first = collectAt mode start second) ∧
    ∀ (options : CompileOptions) (first second : List LoadResult),
      List.Forall₂ Edited first second → compile options first = compile options second := by
  refine ⟨fun first second edits mode start => Tree.collectAt_eq_of_edits edits mode start, ?_⟩
  intro options first second edited
  apply compile_congr
  induction edited with
  | nil => rfl
  | cons related _ ih =>
      rw [List.map_cons, List.map_cons, tokensOf_eq_of_edited options related, ih]

/-- A document with an array and with data beside a value. -/
def plainDocument : Json :=
  .object [("n", .array []), ("a", .object [("value", .bool true), ("b", .null)])]

/-- The same document with a text for the array, without the data beside the value, and with a
container that never holds tokens. -/
def annotatedDocument : Json :=
  .object [("$themes", .object [("value", .null)]), ("n", .string "x"),
    ("a", .object [("value", .bool true)])]

theorem edits_plainDocument :
    Relation.ReflTransGen Tree.Edited plainDocument annotatedDocument := by
  have array : Tree.Edited plainDocument
      (.object [("n", .string "x"), ("a", .object [("value", .bool true), ("b", .null)])]) :=
    ⟨[⟨[], "n", [("a", .object [("value", .bool true), ("b", .null)])], by decide⟩],
      .array [], .string "x", .idle rfl rfl, rfl, rfl⟩
  have beside : Tree.Edited
      (.object [("n", .string "x"), ("a", .object [("value", .bool true), ("b", .null)])])
      (.object [("n", .string "x"), ("a", .object [("value", .bool true)])]) :=
    ⟨[⟨[("n", .string "x")], "a", [], by decide⟩],
      .object [("value", .bool true), ("b", .null)], .object [("value", .bool true)],
      .beside rfl rfl, rfl, rfl⟩
  have container : Tree.Edited
      (.object [("n", .string "x"), ("a", .object [("value", .bool true)])]) annotatedDocument :=
    ⟨[], _, _, @Tree.Change.container [] [("$themes", .object [("value", .null)])] []
      [("n", .string "x"), ("a", .object [("value", .bool true)])] (by simp) (by simp; decide),
      rfl, rfl⟩
  exact ((Relation.ReflTransGen.single array).tail beside).tail container

/-- One edit of each kind: the same is collected and compiled. -/
theorem annotatedDocument_makes_no_difference :
    Relation.ReflTransGen Tree.Edited plainDocument annotatedDocument ∧
    collectAt .strict ["s"] plainDocument = collectAt .strict ["s"] annotatedDocument ∧
    compile .standard [.ok ⟨"d", plainDocument⟩] =
      compile .standard [.ok ⟨"d", annotatedDocument⟩] := by
  refine ⟨edits_plainDocument, ?_, ?_⟩
  · exact unread_data_makes_no_difference.1 _ _ edits_plainDocument .strict ["s"]
  · apply unread_data_makes_no_difference.2
    exact .cons (.document "d" edits_plainDocument) .nil

end Compilation

end DesignTokens
