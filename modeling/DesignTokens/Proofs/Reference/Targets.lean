import DesignTokens.Proofs.Name.Spelling
import DesignTokens.Proofs.Reference.Reading
import DesignTokens.Resolution

/-!
# What references aim at

The target of a reference is a canonical name if its path has an ASCII letter or digit, and empty if
it has none. The path may be without them, since only the text between the braces must not be empty;
the value is then the variable of no name (`references_aim_at_words`, `reference_to_nothing`).
-/

set_option autoImplicit false

namespace DesignTokens

/-! ## Targets -/

/-- A text leaves nothing exactly if it has no ASCII letter or digit. -/
theorem canonicalText_eq_empty_iff (text : String) :
    canonicalText text = "" ↔ ∀ c ∈ text.toList, c.isAlphanum = false := by
  rw [← String.toList_eq_nil_iff, canonicalText_eq, String.toList_ofList, canonicalChars_eq]
  apply hyphenated_words_eq_nil_iff isAlphanum_hyphen
  intro c
  exact isAlphanum_toLower

/-- What a text leaves is a canonical spelling, if it is anything. -/
theorem isSpelled_canonicalText_iff (text : String) :
    isSpelled (canonicalText text).toList = true ↔ canonicalText text ≠ "" := by
  constructor
  · intro spelled empty
    rw [empty] at spelled
    exact absurd spelled (by decide)
  · intro nonempty
    obtain ⟨name, derived⟩ : ∃ name, CanonicalName.derive? text = some name := by
      rw [← Option.ne_none_iff_exists', Ne, CanonicalName.derive?_eq_none_iff]
      exact nonempty
    rw [← CanonicalName.derive?_text derived]
    exact name.spelled

namespace Reference

/-- Whether something of the path can stand in a name. -/
def HasWord (reference : Reference) : Prop := ∃ c ∈ reference.path.toList, c.isAlphanum = true

theorem target_eq_empty_iff (reference : Reference) : reference.target = "" ↔ ¬reference.HasWord := by
  simp [target, canonicalText_eq_empty_iff, HasWord]

/-- A value is the variable that a reference aims at: that of a canonical name if the path has a word,
and that of no name if it has none. -/
structure Becomes (reference : Reference) (value : Json) : Prop where
  value_eq : value = .string ("var(--" ++ reference.target ++ ")")
  named_iff : (∃ name, CanonicalName.parse reference.target = .ok name) ↔ reference.HasWord
  spelled_iff : spellingPattern.isIn reference.target = true ↔ reference.HasWord
  empty_iff : reference.target = "" ↔ ¬reference.HasWord

theorem becomes_toCssVariable (reference : Reference) :
    reference.Becomes (.string reference.toCssVariable) := by
  have spelled : isSpelled reference.target.toList = true ↔ reference.HasWord := by
    rw [target, isSpelled_canonicalText_iff, ← target, Ne, target_eq_empty_iff, not_not]
  refine ⟨by rw [toCssVariable], ?_, ?_, reference.target_eq_empty_iff⟩
  · rw [CanonicalName.exists_parse_eq_ok_iff, spelled]
  · rw [isIn_spelling_iff, spelled]

end Reference

/-! ## Resolved references -/

/-- A value comes from a reference only if it is the text of one, and is its variable then. -/
theorem RuleTable.resolve_of_alias {table : RuleTable} {name : String} {value : Json}
    (h : (table.resolve name value).origin = .alias) :
    ∃ text reference, value = .string text ∧ Reference.parse? text = some reference ∧
      (table.resolve name value).value = .string reference.toCssVariable := by
  unfold resolve at h ⊢
  cases keyword : table.substituteKeyword name value with
  | some replacement => simp [keyword] at h
  | none =>
      cases written : value.reference? with
      | none => cases unit : table.injectUnit name value <;> simp [keyword, written, unit] at h
      | some reference =>
          cases value with
          | string text => exact ⟨text, reference, rfl, written, rfl⟩
          | _ => exact absurd written (by simp [Json.reference?])

/-- **References aim at words.** What is read as a reference becomes the variable of a canonical name
if its path has an ASCII letter or digit, and of no name if it has none; the texts of the latter kind
are those with such a path between braces. The same holds of every value that is resolved from a
reference. -/
theorem references_aim_at_words (text : String) (table : RuleTable) (name : String) (value : Json) :
    (∀ reference, Reference.parse? text = some reference →
        reference.Becomes (.string reference.toCssVariable)) ∧
      ((∃ reference, Reference.parse? text = some reference ∧ reference.target = "") ↔
        ∃ path, Reference.IsPath path ∧ (∀ c ∈ path.toList, c.isAlphanum = false) ∧
          Text.trim text.toList = '\x7b' :: (path.toList ++ ['\x7d'])) ∧
      ((table.resolve name value).origin = .alias →
        ∃ written reference, value = .string written ∧
          Reference.parse? written = some reference ∧
          reference.Becomes (table.resolve name value).value) := by
  refine ⟨fun reference _ => reference.becomes_toCssVariable, ?_, ?_⟩
  · simp only [Reference.parse?_eq_some_iff, Reference.target, canonicalText_eq_empty_iff]
    constructor
    · rintro ⟨⟨path⟩, ⟨isPath, written⟩, other⟩
      exact ⟨path, isPath, other, written⟩
    · rintro ⟨path, isPath, other, written⟩
      exact ⟨⟨path⟩, ⟨isPath, written⟩, other⟩
  · intro isAlias
    obtain ⟨written, reference, isText, read, resolved⟩ := RuleTable.resolve_of_alias isAlias
    refine ⟨written, reference, isText, read, ?_⟩
    rw [resolved]
    exact reference.becomes_toCssVariable

/-- **A reference to nothing** is a blank between braces: it is read, its target is no name, and its
value is the variable of no name. -/
theorem reference_to_nothing :
    Reference.parse? "\x7b \x7d" = some ⟨" "⟩ ∧
      (¬∃ name, CanonicalName.parse (Reference.target ⟨" "⟩) = .ok name) ∧
      RuleTable.builtIn.resolve "color-text" (.string "\x7b \x7d") =
        ⟨.string "var(--)", .alias⟩ := by
  refine ⟨by decide, ?_, by rfl⟩
  rw [CanonicalName.exists_parse_eq_ok_iff]
  decide

end DesignTokens
