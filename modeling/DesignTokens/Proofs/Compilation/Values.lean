import DesignTokens.Proofs.Compilation.Survivors

/-!
# Where the value of a name comes from

The last document that has a name gives its value (`value_of_decisive_leaf`). Within that document
the leaves are first gathered by collected name, and a collected name that comes again keeps its
first place. So the decisive leaf is the last one under the collected name that was new last; it is
the last leaf of the name if that leaf has this collected name, and it may be an earlier one if not
(`not_last_leaf_wins`).
-/

set_option autoImplicit false

namespace DesignTokens

open DesignTokens.Tree

/-- Whether a document has a leaf of a final name. -/
def Document.hasName (name : CanonicalName) (document : Document) : Bool :=
  document.leaves.any (Leaf.hasName name)

/-- What the last element of a kind gives, if only elements of the kind give something. -/
theorem findSomeRev?_of_findRev? {α β : Type} {p : α → Bool} {f : α → Option β} {l : List α} {a : α}
    (isLast : l.findRev? p = some a) (nothing : ∀ b, p b = false → f b = none) (gives : (f a).isSome) :
    l.findSomeRev? f = f a := by
  rw [List.findRev?_eq_find?_reverse, List.find?_eq_some_iff_append] at isLast
  obtain ⟨-, later, earlier, split, others⟩ := isLast
  have none_later : later.findSome? f = none :=
    List.findSome?_eq_none_iff.2 fun b hb => nothing b (by simpa using others b hb)
  rw [List.findSomeRev?_eq_findSome?_reverse, split, List.findSome?_append, none_later,
    List.findSome?_cons]
  obtain ⟨b, hb⟩ := Option.isSome_iff_exists.1 gives
  simp [hb]

namespace Compilation

/-- The last leaf of a name stands in the last document that has the name. -/
theorem findRev?_leaves (mode : CollectMode) (inputs : List LoadResult) (p : Leaf → Bool) :
    (leaves mode inputs).findRev? p =
      (survivors mode inputs).findSomeRev? fun document => document.leaves.findRev? p := by
  simp only [leaves, List.findRev?_eq_find?_reverse, List.findSomeRev?_eq_findSome?_reverse,
    List.reverse_flatMap, List.find?_flatMap, Function.comp_apply]

/-- A name that a document has, has a last leaf there and a decisive one. -/
theorem exists_last_and_decisive {name : CanonicalName} {document : Document}
    (named : document.hasName name) :
    ∃ last decisive, document.leaves.findRev? (Leaf.hasName name) = some last ∧
      decisiveLeaf? name document.leaves = some decisive := by
  obtain ⟨leaf, member, leafNamed⟩ := List.any_eq_true.1 named
  obtain ⟨decisive, isDecisive⟩ := exists_decisiveLeaf? member leafNamed
  have found : (document.leaves.findRev? (Leaf.hasName name)).isSome := by
    rw [List.findRev?_eq_find?_reverse, List.find?_isSome]
    exact ⟨leaf, List.mem_reverse.2 member, leafNamed⟩
  obtain ⟨last, isLast⟩ := Option.isSome_iff_exists.1 found
  exact ⟨last, decisive, isLast, isDecisive⟩

/-- The value of a name in the final tokens, by the last document that has it. -/
theorem get?_tokens_compile {options : CompileOptions} {inputs : List LoadResult}
    {name : CanonicalName} {document : Document} {decisive : Leaf}
    (isLast : (survivors options.mode inputs).findRev? (Document.hasName name) = some document)
    (isDecisive : decisiveLeaf? name document.leaves = some decisive) :
    (compile options inputs).tokens.get? name =
      some (options.rules.resolve name.text decisive.value).value := by
  rw [tokens_compile]
  apply Merge.get?_withAddedNames
  rw [get?_folded, findSomeRev?_of_findRev? isLast]
  · rw [isDecisive, Option.map_some]
  · intro other unnamed
    rw [decisiveLeaf?_eq_none unnamed, Option.map_none]
  · rw [isDecisive]
    rfl

/-- **The decisive leaf gives the value.** A name that a leaf of a contributing document has takes
its value from the last document that has the name. There the decisive leaf is the last leaf of the
name, provided that no other collected name of the final name is newer than that of the last leaf;
and so it is if the leaves of the name have one collected name there. -/
theorem value_of_decisive_leaf (options : CompileOptions) (inputs : List LoadResult)
    (name : CanonicalName)
    (named : ∃ leaf ∈ leaves options.mode inputs, leaf.name? = some name) :
    ∃ document last decisive,
      (survivors options.mode inputs).findRev? (Document.hasName name) = some document ∧
      (leaves options.mode inputs).findRev? (Leaf.hasName name) = some last ∧
      document.leaves.findRev? (Leaf.hasName name) = some last ∧
      decisiveLeaf? name document.leaves = some decisive ∧
      (compile options inputs).tokens.get? name =
        some (options.rules.resolve name.text decisive.value).value ∧
      (newestSpelling? name document.leaves = some last.collectedName → decisive = last) ∧
      ((∀ leaf ∈ document.leaves, leaf.name? = some name →
        leaf.collectedName = last.collectedName) → decisive = last) := by
  obtain ⟨leaf, member, leafNamed⟩ := named
  rw [← Leaf.hasName_iff] at leafNamed
  obtain ⟨owner, ownerMember, leafMember⟩ := List.mem_flatMap.1 member
  have found : ((survivors options.mode inputs).findRev? (Document.hasName name)).isSome := by
    rw [List.findRev?_eq_find?_reverse, List.find?_isSome]
    exact ⟨owner, List.mem_reverse.2 ownerMember, List.any_eq_true.2 ⟨leaf, leafMember, leafNamed⟩⟩
  obtain ⟨document, isLastDocument⟩ := Option.isSome_iff_exists.1 found
  have documentNamed : document.hasName name := by
    rw [List.findRev?_eq_find?_reverse] at isLastDocument
    exact List.find?_some isLastDocument
  obtain ⟨last, decisive, isLast, isDecisive⟩ := exists_last_and_decisive documentNamed
  have newest : newestSpelling? name document.leaves = some last.collectedName →
      decisive = last := by
    intro h
    rw [decisiveLeaf?_of_newest isLast h, Option.some.injEq] at isDecisive
    exact isDecisive.symm
  refine ⟨document, last, decisive, isLastDocument, ?_, isLast, isDecisive,
    get?_tokens_compile isLastDocument isDecisive, newest, ?_⟩
  · rw [findRev?_leaves, findSomeRev?_of_findRev? isLastDocument, isLast]
    · intro other unnamed
      rw [List.findRev?_eq_find?_reverse, List.find?_eq_none]
      intro otherLeaf otherMember
      exact List.any_eq_false.1 unnamed otherLeaf (List.mem_reverse.1 otherMember)
    · rw [isLast]
      rfl
  · intro alike
    rw [List.findRev?_eq_find?_reverse] at isLast
    apply newest
    apply newestSpelling?_of_alike (List.mem_reverse.1 (List.mem_of_find?_eq_some isLast))
      (List.find?_some isLast)
    intro other otherMember otherNamed
    exact alike other otherMember ((Leaf.hasName_iff name other).1 otherNamed)

/-! ## A spelling that comes again -/

/-- A document whose first and last leaf are collected under one name, with another spelling of the
same final name between them. -/
def returning : Document where
  id := "doc.json"
  tree := .object
    [("a.b", .object [("value", .string "first")]),
      ("a", .object [("b", .object [("value", .string "second")])]),
      ("a.b ", .object [("value", .string "third")])]

/-- The final name of all leaves of `returning`. -/
def returningName : CanonicalName := ⟨"a-b", by decide⟩

theorem survivors_returning : survivors .strict [.ok returning] = [returning] :=
  survivors_singleton rfl

/-- In `returning` the second leaf gives the value. -/
theorem value_of_decisive_leaf_returning :
    (∃ leaf ∈ leaves .strict [.ok returning], leaf.name? = some returningName) ∧
      (compile .standard [.ok returning]).tokens.get? returningName = some (.string "second") := by
  have named : ∃ leaf ∈ leaves .strict [.ok returning], leaf.name? = some returningName := by
    rw [leaves, survivors_returning]
    exact ⟨⟨["a", "b"], .string "second"⟩, List.mem_cons_of_mem _ List.mem_cons_self, rfl⟩
  refine ⟨named, ?_⟩
  obtain ⟨document, last, decisive, isDocument, -, -, isDecisive, value, -⟩ :=
    value_of_decisive_leaf .standard [.ok returning] returningName named
  have isReturning : returning = document := by
    have only : (survivors .strict [.ok returning]).findRev? (Document.hasName returningName) =
        some returning := by
      rw [survivors_returning]
      rfl
    exact Option.some.inj (only.symm.trans isDocument)
  subst isReturning
  have second : (⟨["a", "b"], .string "second"⟩ : Leaf) = decisive :=
    Option.some.inj ((show decisiveLeaf? returningName returning.leaves = some _ from rfl).symm.trans
      isDecisive)
  subst second
  exact value

/-- The last leaf of a name does not always give its value: in `returning` it stands under a
collected name that is older than that of the leaf before. -/
theorem not_last_leaf_wins :
    ¬ ∀ (options : CompileOptions) (inputs : List LoadResult) (name : CanonicalName) (last : Leaf),
      (leaves options.mode inputs).findRev? (Leaf.hasName name) = some last →
        (compile options inputs).tokens.get? name =
          some (options.rules.resolve name.text last.value).value := by
  intro law
  have isLast : (leaves .strict [.ok returning]).findRev? (Leaf.hasName returningName) =
      some ⟨["a.b "], .string "third"⟩ := by
    rw [leaves, survivors_returning]
    rfl
  have isDocument : (survivors .strict [.ok returning]).findRev? (Document.hasName returningName) =
      some returning := by
    rw [survivors_returning]
    rfl
  have second : decisiveLeaf? returningName returning.leaves =
      some ⟨["a", "b"], .string "second"⟩ := rfl
  have third := law .standard [.ok returning] returningName _ isLast
  rw [get?_tokens_compile isDocument second] at third
  have texts : some (Json.string "second") = some (Json.string "third") := third
  simp at texts

end Compilation

end DesignTokens
