import DesignTokens.Proofs.Compilation.Names
import DesignTokens.Proofs.Name.Words
import DesignTokens.Proofs.Reference.Reading

/-!
# References to the tokens of a compilation

A reference is written with the keys of a path and dots between them, while the name of the token at
that path is made by collecting it. Both make the same words of the keys, so a reference to a leaf
becomes the variable of a name that the compilation has (`reference_meets_target`).
-/

set_option autoImplicit false

namespace DesignTokens

/-- A joined text has the characters of its parts and of the separator only. -/
theorem mem_intercalate {α : Type} {separator : List α} {parts : List (List α)} {a : α}
    (h : a ∈ List.intercalate separator parts) : a ∈ separator ∨ ∃ part ∈ parts, a ∈ part := by
  induction parts with
  | nil => exact absurd h (by simp)
  | cons part rest ih =>
      cases rest with
      | nil => exact Or.inr ⟨part, List.mem_cons_self, by simpa using h⟩
      | cons next others =>
          rw [List.intercalate_cons_cons, List.append_assoc, List.mem_append, List.mem_append] at h
          rcases h with inPart | inSeparator | inRest
          · exact Or.inr ⟨part, List.mem_cons_self, inPart⟩
          · exact Or.inl inSeparator
          · rcases ih inRest with inSeparator | ⟨other, member, inOther⟩
            · exact Or.inl inSeparator
            · exact Or.inr ⟨other, List.mem_cons_of_mem part member, inOther⟩

/-! ## References to leaves -/

namespace Tree.Leaf

/-- The reference to a leaf: its keys with dots between them. -/
def reference (leaf : Leaf) : Reference := ⟨String.intercalate "." leaf.path⟩

/-- A reference to a leaf aims at the final name of the leaf. -/
theorem target_reference {leaf : Leaf} {name : CanonicalName} (named : leaf.name? = some name) :
    leaf.reference.target = name.text := by
  calc leaf.reference.target = canonicalText (joinPath leaf.path) :=
        canonicalText_intercalate leaf.path
    _ = name.text := (CanonicalName.derive?_text named).symm

/-- Keys without braces can be written between braces, if they have a final name. -/
theorem isPath_reference {leaf : Leaf} {name : CanonicalName} (named : leaf.name? = some name)
    (unbraced : ∀ key ∈ leaf.path, ∀ c ∈ key.toList, Reference.isBrace c = false) :
    Reference.IsPath leaf.reference.path := by
  constructor
  · intro empty
    have target := target_reference named
    rw [Reference.target, empty] at target
    have spelled := name.spelled
    rw [← target] at spelled
    exact absurd spelled (by decide)
  · intro c hc
    rw [reference, String.toList_intercalate] at hc
    rcases mem_intercalate hc with dot | ⟨key, member, inKey⟩
    · rw [List.mem_singleton.1 dot]
      decide
    · obtain ⟨segment, segmentMember, rfl⟩ := List.mem_map.1 member
      exact unbraced segment segmentMember c inKey

end Tree.Leaf

namespace Compilation

/-- **References meet their targets.** The reference to a leaf of a contributing document, by its
keys with dots between them, is read back with white space around it, and its variable is that of
the final name of the leaf, which the compilation has; the keys must have no braces and the leaf must
have a name. -/
theorem reference_meets_target (options : CompileOptions) (inputs : List LoadResult)
    (document : Document) (contributes : document ∈ survivors options.mode inputs)
    (leaf : Tree.Leaf) (member : leaf ∈ document.leaves)
    (unbraced : ∀ key ∈ leaf.path, ∀ c ∈ key.toList, Reference.isBrace c = false)
    (name : CanonicalName) (named : leaf.name? = some name)
    (before after : String) (blankBefore : ∀ c ∈ before.toList, Text.isBlank c = true)
    (blankAfter : ∀ c ∈ after.toList, Text.isBlank c = true) :
    Reference.parse?
        (before ++ "\x7b" ++ String.intercalate "." leaf.path ++ "\x7d" ++ after) =
      some leaf.reference ∧
      leaf.reference.toCssVariable = "var(--" ++ name.text ++ ")" ∧
      name ∈ (compile options inputs).tokens.keys := by
  refine ⟨?_, ?_, ?_⟩
  · have readBack := Reference.parse?_render (Tree.Leaf.isPath_reference named unbraced) blankBefore
      blankAfter
    simpa [Reference.render, Tree.Leaf.reference, String.append_assoc] using readBack
  · rw [Reference.toCssVariable, Tree.Leaf.target_reference named]
  · have ofLeaf : name ∈ leafNames options.mode inputs :=
      List.mem_filterMap.2 ⟨leaf, List.mem_flatMap.2 ⟨document, contributes, member⟩, named⟩
    exact (mem_keys_compile options inputs name).2 (Or.inl ofLeaf)

/-- A document whose only token stands below keys that are blank at the end, empty, and dotted. -/
def spaced : Document where
  id := "doc.json"
  tree := .object
    [("Text ", .object [("", .object [(".b.c", .object [("value", .string "first")])])])]

/-- The final name of the token of `spaced`. -/
def spacedName : CanonicalName := ⟨"text-b-c", by decide⟩

/-- A reference to the token of `spaced`, with white space around it. -/
theorem reference_meets_target_spaced :
    Reference.parse? (" " ++ "\x7b" ++ "Text ...b.c" ++ "\x7d" ++ "\n") =
      some ⟨"Text ...b.c"⟩ ∧
      Reference.toCssVariable ⟨"Text ...b.c"⟩ = "var(--text-b-c)" ∧
      spacedName ∈ (compile .standard [.ok spaced]).tokens.keys := by
  have contributes : spaced ∈ survivors .strict [.ok spaced] := by
    rw [survivors_singleton rfl]
    exact List.mem_cons_self
  have unbraced : ∀ key ∈ ["Text ", "", ".b.c"], ∀ c ∈ key.toList,
      Reference.isBrace c = false := by
    simp [Reference.isBrace]
  exact reference_meets_target .standard [.ok spaced] spaced contributes
    ⟨["Text ", "", ".b.c"], .string "first"⟩ List.mem_cons_self unbraced spacedName rfl " " "\n"
    (List.all_eq_true.1 rfl) (List.all_eq_true.1 rfl)

end Compilation

end DesignTokens
