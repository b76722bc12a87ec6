import DesignTokens.Proofs.Compilation.Survivors
import Mathlib.Data.List.Nodup

/-!
# The names of a compilation

The final names are the names of the leaves of the contributing documents and the corrections of
these names, each once; the names of the leaves stand in the order of first appearance
(`names_of_leaves_and_corrections`).
-/

set_option autoImplicit false

namespace DesignTokens.Compilation

/-- The names of the leaves of the contributing documents, one for every leaf that has a name. -/
def leafNames (mode : CollectMode) (inputs : List LoadResult) : List CanonicalName :=
  (leaves mode inputs).filterMap Tree.Leaf.name?

variable (options : CompileOptions) (inputs : List LoadResult)

theorem mem_leafNames (name : CanonicalName) :
    name ∈ leafNames options.mode inputs ↔ name ∈ (folded options inputs).keys := by
  rw [keys_folded, List.mem_eraseDups, leafNames]

theorem mem_keys_compile (name : CanonicalName) :
    name ∈ (compile options inputs).tokens.keys ↔
      name ∈ leafNames options.mode inputs ∨
        ∃ original ∈ leafNames options.mode inputs, original.correction? = some name := by
  simp only [tokens_compile, Merge.mem_keys_withAddedNames, mem_leafNames]

/-- The final names that leaves have, in their order of first appearance. -/
theorem filter_keys_compile :
    ((compile options inputs).tokens.keys.filter fun name =>
        name ∈ leafNames options.mode inputs) = (leafNames options.mode inputs).eraseDups := by
  have known : (fun name => decide (name ∈ leafNames options.mode inputs)) =
      (folded options inputs).contains := by
    funext name
    rw [Bool.eq_iff_iff, decide_eq_true_iff, mem_leafNames, OrderedMap.contains_iff]
  rw [known, tokens_compile, Merge.filter_keys_withAddedNames, keys_folded, leafNames]

theorem nodup_texts_compile :
    ((compile options inputs).tokens.keys.map CanonicalName.text).Nodup :=
  (compile options inputs).tokens.keys_nodup.map fun _ _ same => CanonicalName.ext_text same

/-- **Every name is kept and none is made up.** The texts of the final names are distinct and can be
read back; the final names are those of the leaves and their corrections, and no others; those of
the leaves stand in the order of first appearance; and the correction of a final name is a final
name. -/
theorem names_of_leaves_and_corrections :
    ((compile options inputs).tokens.keys.map CanonicalName.text).Nodup ∧
      (∀ name ∈ (compile options inputs).tokens.keys,
        CanonicalName.parse name.text = .ok name) ∧
      (∀ name, name ∈ (compile options inputs).tokens.keys ↔
        name ∈ leafNames options.mode inputs ∨
          ∃ original ∈ leafNames options.mode inputs, original.correction? = some name) ∧
      ((compile options inputs).tokens.keys.filter fun name =>
        name ∈ leafNames options.mode inputs) = (leafNames options.mode inputs).eraseDups ∧
      (∀ name ∈ (compile options inputs).tokens.keys, ∀ corrected,
        name.correction? = some corrected → corrected ∈ (compile options inputs).tokens.keys) := by
  refine ⟨nodup_texts_compile options inputs, fun name _ => name.parse_text,
    mem_keys_compile options inputs, filter_keys_compile options inputs, ?_⟩
  intro name member corrected correction
  rcases (mem_keys_compile options inputs name).1 member with ofLeaf | ⟨original, -, isCorrection⟩
  · exact (mem_keys_compile options inputs corrected).2 (Or.inr ⟨name, ofLeaf, correction⟩)
  · -- A corrected name has no correction of its own.
    rw [CanonicalName.correction?_of_correction? isCorrection] at correction
    exact absurd correction (by simp)

end DesignTokens.Compilation
