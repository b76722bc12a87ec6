import DesignTokens.Proofs.Reference.Reading
import DesignTokens.Proofs.Rule.Application
import DesignTokens.Resolution

/-!
# What comes first in a resolution

A value is rewritten in one of four ways, which exclude each other (`RuleTable.Resolves`): by the first
keyword rule that applies, else as a reference, else by the first unit rule of its family, else not at
all. Resolving does what they say and nothing else (`values_are_resolved_by_precedence`); of the family
of a rule it matters only whether it holds the name, and not by which pattern. A reference is no numeral
(`not_hasNumeral_of_isReference`), so it loses no unit by coming before the units.
-/

set_option autoImplicit false

namespace DesignTokens

/-! ## References -/

/-- A value is a reference along a path: a string that has the path between braces, with white space
around it or none. -/
def Json.IsReference (value : Json) (path : String) : Prop :=
  ∃ text, value = .string text ∧ Reference.IsPath path ∧
    Text.trim text.toList = '\x7b' :: (path.toList ++ ['\x7d'])

theorem reference?_eq_some_iff (value : Json) (reference : Reference) :
    value.reference? = some reference ↔ value.IsReference reference.path := by
  cases value with
  | string text => simp [Json.reference?, Json.IsReference, Reference.parse?_eq_some_iff]
  | _ => simp [Json.reference?, Json.IsReference]

theorem reference?_eq_none_iff (value : Json) :
    value.reference? = none ↔ ∀ path, ¬value.IsReference path := by
  rw [Option.eq_none_iff_forall_ne_some]
  constructor
  · intro unread path isReference
    exact unread ⟨path⟩ ((reference?_eq_some_iff value ⟨path⟩).2 isReference)
  · intro others reference read
    exact others reference.path ((reference?_eq_some_iff value reference).1 read)

/-- A string is no reference if it starts with a visible character that is no brace. -/
theorem not_isReference_of_head {text : String} {first : Char} {rest : List Char}
    (starts : text.toList = first :: rest) (visible : Text.isBlank first = false)
    (other : Reference.isBrace first = false) (path : String) :
    ¬(Json.string text).IsReference path := by
  rintro ⟨own, same, -, braced⟩
  obtain rfl := Json.string.inj same
  have kept : Text.trimStart (first :: rest) = first :: rest := by
    rw [Text.trimStart, List.dropWhile_cons_of_neg (by simp [visible])]
  -- What is left of the end of the text starts where the text starts.
  obtain ⟨after, whole⟩ : Text.trim (first :: rest) <+: first :: rest := by
    rw [Text.trim, kept]
    exact List.rdropWhile_prefix _ _
  rw [← starts, braced, starts] at whole
  obtain ⟨isOpening, -⟩ := List.cons.inj whole
  rw [← isOpening] at other
  exact absurd other (by decide)

theorem isBlank_of_between {c : Char} (low : 45 ≤ c.toNat) (high : c.toNat ≤ 57) :
    Text.isBlank c = false := by
  simp only [Text.isBlank, Bool.or_eq_false_iff, Bool.and_eq_false_iff, decide_eq_false_iff_not,
    beq_eq_false_iff_ne]
  omega

theorem isBrace_of_between {c : Char} (high : c.toNat ≤ 57) : Reference.isBrace c = false := by
  have other (brace : Char) (far : 57 < brace.toNat) : (c == brace) = false := by
    rw [beq_eq_false_iff_ne]
    rintro rfl
    omega
  rw [Reference.isBrace, other _ (by decide), other _ (by decide)]
  rfl

/-- A numeral is no reference. -/
theorem not_hasNumeral_of_isReference {value : Json} {path : String} (isReference : value.IsReference path)
    (text : String) : ¬value.HasNumeral text := by
  intro numeral
  cases numeral with
  | number n =>
      obtain ⟨own, same, -⟩ := isReference
      exact absurd same (by simp)
  | string numeral =>
      obtain ⟨first, rest, starts, low, high⟩ := exists_head_of_isNumeral numeral
      exact not_isReference_of_head starts (isBlank_of_between low high) (isBrace_of_between high) path
        isReference

/-! ## Precedence -/

namespace RuleTable

/-- What a value is resolved to, by precedence: what the first keyword rule that applies replaces it by;
if there is none, the CSS variable of the token that it refers to; if it is no reference either, its
numeral with the unit of the first unit rule for the name; and if no rule applies, the value itself. -/
inductive Resolves (table : RuleTable) (name : String) (value : Json) : Resolved → Prop
  | keyword {rule : KeywordRule}
      (first : IsFirst (fun rule => rule.AppliesTo name value) table.keywords rule) :
      Resolves table name value ⟨.string rule.replacement, .literal⟩
  | reference {path : String}
      (noKeyword : ∀ rule ∈ table.keywords, ¬rule.AppliesTo name value)
      (isReference : value.IsReference path) :
      Resolves table name value ⟨.string ("var(--" ++ canonicalText path ++ ")"), .alias⟩
  | unit {text : String} {rule : UnitRule}
      (noKeyword : ∀ rule ∈ table.keywords, ¬rule.AppliesTo name value)
      (noReference : ∀ path, ¬value.IsReference path)
      (numeral : value.HasNumeral text)
      (first : IsFirst (fun rule => rule.family.contains name = true) table.units rule) :
      Resolves table name value ⟨.string (text ++ rule.unit), .literal⟩
  | unchanged
      (noKeyword : ∀ rule ∈ table.keywords, ¬rule.AppliesTo name value)
      (noReference : ∀ path, ¬value.IsReference path)
      (noUnit : ∀ text, value.HasNumeral text →
        ∀ rule ∈ table.units, ¬rule.family.contains name = true) :
      Resolves table name value ⟨value, .literal⟩

variable (table : RuleTable) (name : String) (value : Json)

/-- Resolving follows the precedence. -/
theorem resolves_resolve : table.Resolves name value (table.resolve name value) := by
  unfold resolve
  cases keyword : table.substituteKeyword name value with
  | some replacement =>
      obtain ⟨rule, first, rfl⟩ := (substituteKeyword_eq_some_iff table name value _).1 keyword
      exact Resolves.keyword first
  | none =>
      have noKeyword := (substituteKeyword_eq_none_iff table name value).1 keyword
      cases read : value.reference? with
      | some reference => exact Resolves.reference noKeyword ((reference?_eq_some_iff value _).1 read)
      | none =>
          have noReference := (reference?_eq_none_iff value).1 read
          cases unit : table.injectUnit name value with
          | some suffixed =>
              obtain ⟨text, rule, numeral, first, rfl⟩ :=
                (injectUnit_eq_some_iff table name value _).1 unit
              exact Resolves.unit noKeyword noReference numeral first
          | none =>
              exact Resolves.unchanged noKeyword noReference
                ((injectUnit_eq_none_iff table name value).1 unit)

variable {table name value}

/-- What follows the precedence is what is resolved: the ways exclude each other, and each has one
outcome. -/
theorem Resolves.resolve_eq {resolved : Resolved} (h : table.Resolves name value resolved) :
    table.resolve name value = resolved := by
  unfold resolve
  cases h with
  | keyword first =>
      rw [(substituteKeyword_eq_some_iff table name value _).2 ⟨_, first, rfl⟩]
  | @reference path noKeyword isReference =>
      rw [(substituteKeyword_eq_none_iff table name value).2 noKeyword,
        (reference?_eq_some_iff value ⟨path⟩).2 isReference]
      rfl
  | unit noKeyword noReference numeral first =>
      rw [(substituteKeyword_eq_none_iff table name value).2 noKeyword,
        (reference?_eq_none_iff value).2 noReference,
        (injectUnit_eq_some_iff table name value _).2 ⟨_, _, numeral, first, rfl⟩]
  | unchanged noKeyword noReference noUnit =>
      rw [(substituteKeyword_eq_none_iff table name value).2 noKeyword,
        (reference?_eq_none_iff value).2 noReference,
        (injectUnit_eq_none_iff table name value).2 noUnit]

/-! ## Values with a text -/

/-- A rewritten value can stand in a declaration, as the value could that has been rewritten. -/
theorem Resolves.exists_cssText?_iff {table : RuleTable} {name : String} {value : Json}
    {resolved : Resolved} (h : table.Resolves name value resolved) :
    (∃ text, resolved.value.cssText? = some text) ↔ ∃ text, value.cssText? = some text := by
  cases h with
  | keyword first =>
      -- A keyword rule applies only to a value that has a text.
      obtain ⟨-, text, written, -⟩ := first.holds
      exact iff_of_true ⟨_, rfl⟩ ⟨text, written⟩
  | reference _ isReference =>
      obtain ⟨text, rfl, -⟩ := isReference
      exact iff_of_true ⟨_, rfl⟩ ⟨text, rfl⟩
  | unit _ _ numeral _ =>
      cases numeral with
      | number n => exact iff_of_true ⟨_, rfl⟩ ⟨_, rfl⟩
      | string _ => exact iff_of_true ⟨_, rfl⟩ ⟨_, rfl⟩
  | unchanged => exact Iff.rfl

/-- **Values are resolved by precedence**: by the first keyword rule that applies, else as a reference,
else by the first unit rule for the name, else not at all. A reference is not suffixed whatever unit rules
there are, and would not be if the units came first. The resolved value can stand in a declaration
exactly if the value is a string, a number or a boolean. -/
theorem values_are_resolved_by_precedence (table : RuleTable) (name : String) (value : Json) :
    (∀ resolved, table.resolve name value = resolved ↔ table.Resolves name value resolved) ∧
      (∀ path, value.IsReference path → table.injectUnit name value = none) ∧
      ((∃ text, (table.resolve name value).value.cssText? = some text) ↔
        value.kind = .string ∨ value.kind = .number ∨ value.kind = .boolean) := by
  refine ⟨?_, ?_, ?_⟩
  · intro resolved
    constructor
    · rintro rfl
      exact resolves_resolve table name value
    · exact Resolves.resolve_eq
  · intro path isReference
    apply (injectUnit_eq_none_iff table name value).2
    intro text numeral
    exact absurd numeral (not_hasNumeral_of_isReference isReference text)
  · rw [(resolves_resolve table name value).exists_cssText?_iff, Json.exists_cssText?_iff]

end RuleTable

end DesignTokens
