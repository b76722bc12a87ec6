import DesignTokens.Proofs.Collection.Reached
import DesignTokens.Proofs.Compilation.Isolation

/-!
# Strict and permissive

The two modes differ only at a leaf whose value is an array or an object. The permissive mode takes
every leaf. The strict mode fails at the first such leaf and names it; where there is none it gives
what the permissive mode gives (`collectAt_strict`). So a compilation that leaves nothing out in
strict mode is the same in permissive mode (`strict_is_permissive_or_fails_at_first_malformed`).
-/

set_option autoImplicit false

namespace DesignTokens

namespace Tree

/-- The first leaf of a tree, depth first, whose value is an array or an object. -/
def firstMalformed? (start : List String) (tree : Json) : Option Leaf :=
  (leavesAt start tree).find? fun leaf => leaf.value.isStructured

/-- The first malformed leaf, by what stands before it. -/
theorem firstMalformed?_eq_some_iff (start : List String) (tree : Json) (leaf : Leaf) :
    firstMalformed? start tree = some leaf ↔
      leaf.value.isStructured = true ∧
        ∃ before after, leavesAt start tree = before ++ leaf :: after ∧
          ∀ earlier ∈ before, earlier.value.isStructured = false := by
  simp only [firstMalformed?, List.find?_eq_some_iff_append, Bool.not_eq_true']

theorem exists_firstMalformed?_iff (start : List String) (tree : Json) :
    (∃ leaf, firstMalformed? start tree = some leaf) ↔
      ∃ keys value, HasLeaf tree keys value ∧ value.isStructured = true := by
  rw [← Option.isSome_iff_exists, firstMalformed?, List.find?_isSome]
  constructor
  · rintro ⟨leaf, member, structured⟩
    obtain ⟨keys, -, hasLeaf⟩ := (mem_leavesAt_iff start tree leaf).1 member
    exact ⟨keys, leaf.value, hasLeaf, structured⟩
  · rintro ⟨keys, value, hasLeaf, structured⟩
    have member : ⟨start ++ keys, value⟩ ∈ leavesAt start tree :=
      (mem_leavesAt_iff start tree _).2 ⟨keys, rfl, hasLeaf⟩
    exact ⟨_, member, structured⟩

end Tree

/-! ## Collecting in each mode -/

/-- The permissive mode takes every leaf. -/
theorem collectAt_permissive (start : List String) (tree : Json) :
    collectAt .permissive start tree =
      .ok (OrderedMap.ofList ((Tree.leavesAt start tree).map Tree.Leaf.token)) := by
  have noneRefused :
      (Tree.leavesAt start tree).find? (Tree.Leaf.isRefused .permissive) = none :=
    List.find?_eq_none.2 fun _ _ => Bool.false_ne_true
  rw [collectAt_eq_gather, Collection.gather, noneRefused]
  rfl

/-- The strict mode fails at the first malformed leaf and is permissive if there is none. -/
theorem collectAt_strict (start : List String) (tree : Json) :
    collectAt .strict start tree =
      match Tree.firstMalformed? start tree with
      | some leaf => .error (.malformedLeaf leaf.path leaf.value.kind)
      | none => collectAt .permissive start tree := by
  have refused : Tree.Leaf.isRefused .strict = fun leaf => leaf.value.isStructured := by
    funext leaf
    exact Bool.true_and _
  rw [collectAt_permissive, collectAt_eq_gather, Collection.gather, refused, Tree.firstMalformed?]
  cases (Tree.leavesAt start tree).find? fun leaf => leaf.value.isStructured <;> rfl

namespace Compilation

/-- The strict mode leaves a document out exactly if it has a malformed leaf. -/
theorem rejection?_strict_eq_none_iff (document : Document) :
    rejection? .strict (.ok document) = none ↔ Tree.firstMalformed? [] document.tree = none := by
  simp only [rejection?, collect, collectAt_strict, collectAt_permissive]
  cases Tree.firstMalformed? [] document.tree with
  | none => simp
  | some leaf => simp

/-- A document that is not left out in strict mode is collected alike in both modes. -/
theorem tokensOf_strict {rules : RuleTable} {input : LoadResult}
    (accepted : rejection? .strict input = none) :
    tokensOf ⟨.strict, rules⟩ input = tokensOf ⟨.permissive, rules⟩ input := by
  cases input with
  | error reason => exact absurd accepted (by simp [rejection?])
  | ok document =>
      have noneMalformed := (rejection?_strict_eq_none_iff document).1 accepted
      simp only [tokensOf, collect, collectAt_strict, noneMalformed]

end Compilation

open Compilation in
/-- **Strict is permissive, or fails at the first malformed leaf.** The permissive mode never fails.
The strict mode fails exactly if an object with an array or an object for its value is reached. The
error names the first such leaf, depth first, by the keys of the start and those on the way without
wrappers, and by the kind of its value. If the strict mode does not fail, both modes give the same;
and if a strict compilation leaves nothing out, the permissive compilation gives the same
stylesheet, tokens and report. -/
theorem strict_is_permissive_or_fails_at_first_malformed (start : List String) (tree : Json)
    (rules : RuleTable) (inputs : List LoadResult) :
    (∃ tokens, collectAt .permissive start tree = .ok tokens) ∧
    ((∃ e, collectAt .strict start tree = .error e) ↔
      ∃ keys value, Tree.HasLeaf tree keys value ∧ value.isStructured = true) ∧
    (∀ e, collectAt .strict start tree = .error e →
      ∃ before leaf after, Tree.leavesAt start tree = before ++ leaf :: after ∧
        (∀ earlier ∈ before, earlier.value.isStructured = false) ∧
        leaf.value.isStructured = true ∧
        (∃ keys, leaf.path = start ++ keys ∧ Tree.HasLeaf tree keys leaf.value) ∧
        e = .malformedLeaf leaf.path leaf.value.kind ∧
        e.message = "malformed leaf at " ++ String.intercalate "." leaf.path ++ ": value is " ++
          leaf.value.kind.name ++ ", expected a scalar") ∧
    (∀ tokens, collectAt .strict start tree = .ok tokens →
      collectAt .permissive start tree = .ok tokens) ∧
    ((compile ⟨.strict, rules⟩ inputs).report.skipped = [] →
      compile ⟨.permissive, rules⟩ inputs = compile ⟨.strict, rules⟩ inputs) := by
  have strict := collectAt_strict start tree
  refine ⟨⟨_, collectAt_permissive start tree⟩, ?_, ?_, ?_, ?_⟩
  · rw [← Tree.exists_firstMalformed?_iff start tree, strict, collectAt_permissive]
    cases Tree.firstMalformed? start tree with
    | none => simp
    | some leaf => simp
  · intro e failed
    cases malformed : Tree.firstMalformed? start tree with
    | none => simp [strict, malformed, collectAt_permissive] at failed
    | some leaf =>
        obtain ⟨structured, before, after, split, scalar⟩ :=
          (Tree.firstMalformed?_eq_some_iff start tree leaf).1 malformed
        have member : leaf ∈ Tree.leavesAt start tree := by simp [split]
        simp only [strict, malformed, Except.error.injEq] at failed
        subst failed
        exact ⟨before, leaf, after, split, scalar, structured,
          (Tree.mem_leavesAt_iff start tree leaf).1 member, rfl, rfl⟩
  · intro tokens collected
    cases malformed : Tree.firstMalformed? start tree with
    | none => simpa [strict, malformed] using collected
    | some leaf => simp [strict, malformed] at collected
  · intro nothingLeftOut
    -- No load result is left out, so that each gives the same tokens in both modes.
    rw [compile_eq, reportOf_eq] at nothingLeftOut
    apply compile_congr
    apply List.map_congr_left
    intro input member
    apply Eq.symm
    apply tokensOf_strict
    exact List.filterMap_eq_nil_iff.1 nothingLeftOut input member

open Compilation in
/-- The wrapper comes first: of two malformed leaves the one in the wrapper is named, though it
stands second. A document without such leaves is compiled alike in both modes. -/
theorem malformed_leaf_of_wrapper_is_first :
    let tree := Json.object [("z", .object [("value", .array [])]),
      ("tokens", .object [("a", .object [("value", .object [])])])]
    let document := Document.mk "d" (.object [("a", .object [("value", .bool true)])])
    collectAt .strict ["p"] tree = .error (.malformedLeaf ["p", "a"] .object) ∧
    (∃ keys value, Tree.HasLeaf tree keys value ∧ value.isStructured = true) ∧
    (compile ⟨.strict, .builtIn⟩ [.ok document]).report.skipped = [] ∧
    compile ⟨.permissive, .builtIn⟩ [.ok document] =
      compile ⟨.strict, .builtIn⟩ [.ok document] := by
  intro tree document
  have law := strict_is_permissive_or_fails_at_first_malformed ["p"] tree .builtIn [.ok document]
  have failed : collectAt .strict ["p"] tree = .error (.malformedLeaf ["p", "a"] .object) := by
    rw [collectAt_strict]
    rfl
  have nothingLeftOut : (compile ⟨.strict, .builtIn⟩ [.ok document]).report.skipped = [] := by
    have accepted := (rejection?_strict_eq_none_iff document).2 rfl
    rw [compile_eq, reportOf_eq]
    simp [rejections, accepted]
  exact ⟨failed, law.2.1.1 ⟨_, failed⟩, nothingLeftOut, law.2.2.2.2 nothingLeftOut⟩

end DesignTokens
