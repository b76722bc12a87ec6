import DesignTokens.Resolution

/-!
# Merging documents

The tokens of several documents are folded into one map: a name keeps the place of its first
appearance, and the last document that has it gives its value. After that every name with the
misspelling `gird-` is followed by its corrected name with the same value, unless a document has
the corrected name itself.
-/

set_option autoImplicit false

namespace DesignTokens

/-- The final tokens in the order in which they are written. -/
abbrev TokenMap := OrderedMap CanonicalName Json

/-- What happened in a merge. -/
structure MergeStats where
  /-- Number of documents. -/
  documents : Nat
  /-- Number of tokens in all documents. -/
  tokens : Nat
  /-- Number of tokens that took the place of a token of an earlier document. -/
  overrides : Nat
  /-- Number of names whose value comes from a reference to another token. -/
  aliases : Nat
  /-- Number of names whose correction was added. -/
  corrections : Nat
deriving DecidableEq, Repr

/-- The final tokens with the account of their merge. -/
structure Merged where
  tokens : TokenMap
  stats : MergeStats

namespace Merge

/-! ## Folding -/

/-- The tokens folded so far, with the number of tokens seen and of tokens that replaced others. -/
structure Fold where
  folded : NormalTokens
  tokens : Nat
  overrides : Nat

/-- Nothing folded yet. -/
def Fold.start : Fold := ⟨.empty, 0, 0⟩

/-- Folds one more token. -/
def Fold.addToken (fold : Fold) (token : CanonicalName × Resolved) : Fold where
  folded := fold.folded.insert token.1 token.2
  tokens := fold.tokens + 1
  -- Names of one document differ, so a name that is there is that of an earlier document.
  overrides := if fold.folded.contains token.1 then fold.overrides + 1 else fold.overrides

/-- Folds the tokens of one more document. -/
def Fold.addDocument (fold : Fold) (document : NormalTokens) : Fold :=
  document.entries.foldl addToken fold

/-- Folds the tokens of a list of documents. -/
def Fold.ofDocuments (documents : List NormalTokens) : Fold :=
  documents.foldl addDocument .start

/-! ## Corrected names -/

/-- The corrected name that is added for a name: its correction, unless a document has it. -/
def addedName? (folded : NormalTokens) (name : CanonicalName) : Option CanonicalName :=
  name.correction?.filter fun correction => !folded.contains correction

/-- A token, followed by its corrected name if that is added. -/
def withAddedName (folded : NormalTokens) (token : CanonicalName × Resolved) :
    List (CanonicalName × Json) :=
  (token.1, token.2.value) ::
    ((addedName? folded token.1).map fun name => (name, token.2.value)).toList

/-- The final tokens of the folded ones. -/
def withAddedNames (folded : NormalTokens) : TokenMap :=
  .ofList (folded.entries.flatMap (withAddedName folded))

end Merge

/-- Merges documents, first to last. -/
def merge (documents : List NormalTokens) : Merged :=
  let fold := Merge.Fold.ofDocuments documents
  { tokens := Merge.withAddedNames fold.folded
    stats :=
      { documents := documents.length
        tokens := fold.tokens
        overrides := fold.overrides
        -- Added names are not counted again: they have the value of another name.
        aliases := fold.folded.values.countP Resolved.isAlias
        corrections :=
          fold.folded.keys.countP fun name => (Merge.addedName? fold.folded name).isSome } }

/-! ## Equations of the fold -/

namespace Merge

@[simp] theorem Fold.folded_addToken (fold : Fold) (token : CanonicalName × Resolved) :
    (fold.addToken token).folded = fold.folded.insert token.1 token.2 := rfl

@[simp] theorem Fold.tokens_addToken (fold : Fold) (token : CanonicalName × Resolved) :
    (fold.addToken token).tokens = fold.tokens + 1 := rfl

/-- Folding a document inserts its tokens. -/
theorem Fold.folded_addDocument (fold : Fold) (document : NormalTokens) :
    (fold.addDocument document).folded = fold.folded.insertAll document.entries := by
  simp only [addDocument, OrderedMap.insertAll]
  induction document.entries generalizing fold with
  | nil => rfl
  | cons token rest ih => simp [ih]

/-- The folded tokens are those of all documents, inserted first to last. -/
theorem Fold.folded_ofDocuments (documents : List NormalTokens) :
    (ofDocuments documents).folded =
      OrderedMap.ofList (documents.flatMap OrderedMap.entries) := by
  have general : ∀ fold : Fold, (documents.foldl addDocument fold).folded =
      fold.folded.insertAll (documents.flatMap OrderedMap.entries) := by
    induction documents with
    | nil => intro fold; rfl
    | cons document rest ih =>
        intro fold
        simp [ih, folded_addDocument, OrderedMap.insertAll_append]
  exact general .start

end Merge

end DesignTokens
