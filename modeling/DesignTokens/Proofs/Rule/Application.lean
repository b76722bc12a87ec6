import DesignTokens.Proofs.Rule.Numerals

/-!
# Which rule applies

Of the rules of a class the first one that applies counts (`IsFirst`). A keyword rule applies to a value
whose text in upper case is its literal, under a name of its family (`substituteKeyword_eq_some_iff`). A
unit rule applies to every number and numeral under a name of its family (`injectUnit_eq_some_iff`). So a
number takes units as its text does, and no other string takes one
(`numbers_and_their_texts_take_units_alike`).
-/

set_option autoImplicit false

namespace DesignTokens

/-! ## The first of a list -/

/-- An element is the first one of a list for which a condition holds. -/
def IsFirst {α : Type} (condition : α → Prop) (l : List α) (a : α) : Prop :=
  condition a ∧ ∃ before after, l = before ++ a :: after ∧ ∀ other ∈ before, ¬condition other

section First

variable {α : Type} {condition : α → Prop} {l : List α} {a : α}

theorem IsFirst.holds (first : IsFirst condition l a) : condition a := first.1

theorem IsFirst.mem (first : IsFirst condition l a) : a ∈ l := by
  obtain ⟨-, before, after, rfl, -⟩ := first
  exact List.mem_append_right before List.mem_cons_self

theorem find?_eq_some_iff_isFirst (p : α → Bool) :
    l.find? p = some a ↔ IsFirst (fun b => p b = true) l a := by
  rw [List.find?_eq_some_iff_append, IsFirst]
  simp only [Bool.not_eq_true', Bool.not_eq_true]

end First

/-! ## Keyword rules -/

/-- A keyword rule applies to a value under a name: the name is of its family, and its literal is the
text of the value in upper case. -/
def KeywordRule.AppliesTo (rule : KeywordRule) (name : String) (value : Json) : Prop :=
  rule.family.contains name = true ∧ ∃ text, value.cssText? = some text ∧ rule.literal = Text.upper text

namespace RuleTable

section Keywords

variable (name : String) {value : Json} {text : String} (written : value.cssText? = some text)

include written

theorem appliesTo_iff_of_text (rule : KeywordRule) :
    rule.AppliesTo name value ↔
      (rule.family.contains name && rule.literal == Text.upper text) = true := by
  simp [KeywordRule.AppliesTo, written]

theorem apply?_eq_some_iff (rule : KeywordRule) (result : String) :
    KeywordRule.apply? rule name (Text.upper text) = some result ↔
      rule.AppliesTo name value ∧ rule.replacement = result := by
  rw [appliesTo_iff_of_text name written, KeywordRule.apply?, Option.ite_none_right_eq_some,
    Option.some.injEq]

theorem apply?_eq_none_iff (rule : KeywordRule) :
    KeywordRule.apply? rule name (Text.upper text) = none ↔ ¬rule.AppliesTo name value := by
  rw [appliesTo_iff_of_text name written, KeywordRule.apply?, ite_eq_right_iff]
  simp only [reduceCtorEq, imp_false]

end Keywords

/-- **The first keyword rule that applies gives the keyword**, whatever rules of other literals hold the
name before it. -/
theorem substituteKeyword_eq_some_iff (table : RuleTable) (name : String) (value : Json)
    (result : String) :
    table.substituteKeyword name value = some result ↔
      ∃ rule, IsFirst (fun rule => rule.AppliesTo name value) table.keywords rule ∧
        rule.replacement = result := by
  rw [substituteKeyword]
  cases written : value.cssText? with
  | none =>
      -- No rule applies to a value without a text.
      constructor
      · intro found
        exact absurd found (by simp)
      · rintro ⟨rule, ⟨⟨-, text, isText, -⟩, -⟩, -⟩
        rw [written] at isText
        exact absurd isText (by simp)
  | some text =>
      rw [Option.bind_some, List.findSome?_eq_some_iff]
      simp only [apply?_eq_some_iff name written, apply?_eq_none_iff name written]
      constructor
      · rintro ⟨before, rule, after, split, ⟨applies, same⟩, earlier⟩
        exact ⟨rule, ⟨applies, before, after, split, earlier⟩, same⟩
      · rintro ⟨rule, ⟨applies, before, after, split, earlier⟩, same⟩
        exact ⟨before, rule, after, split, ⟨applies, same⟩, earlier⟩

theorem substituteKeyword_eq_none_iff (table : RuleTable) (name : String) (value : Json) :
    table.substituteKeyword name value = none ↔
      ∀ rule ∈ table.keywords, ¬rule.AppliesTo name value := by
  rw [substituteKeyword]
  cases written : value.cssText? with
  | none => simp [KeywordRule.AppliesTo, written]
  | some text =>
      rw [Option.bind_some, List.findSome?_eq_none_iff]
      simp only [apply?_eq_none_iff name written]

end RuleTable

/-! ## Unit rules -/

/-- A value is a number with a text: a number, or a string that is a numeral. -/
inductive Json.HasNumeral : Json → String → Prop
  | number (n : JsonNumber) : HasNumeral (.number n) n.cssText
  | string {text : String} (numeral : IsNumeral text.toList) : HasNumeral (.string text) text

namespace RuleTable

theorem numericText?_eq_some_iff (value : Json) (text : String) :
    numericText? value = some text ↔ value.HasNumeral text := by
  constructor
  · intro read
    cases value with
    | number n =>
        rw [← Option.some.inj read]
        exact Json.HasNumeral.number n
    | string own =>
        rw [numericText?, Option.ite_none_right_eq_some, isDecimal_iff] at read
        obtain ⟨numeral, same⟩ := read
        rw [← Option.some.inj same]
        exact Json.HasNumeral.string numeral
    | _ => exact absurd read (by simp [numericText?])
  · intro numeral
    cases numeral with
    | number n => rfl
    | string numeral => rw [numericText?, if_pos ((isDecimal_iff _).2 numeral)]

/-- **The first unit rule whose family holds the name gives the unit** of a number or a numeral. -/
theorem injectUnit_eq_some_iff (table : RuleTable) (name : String) (value : Json) (result : String) :
    table.injectUnit name value = some result ↔
      ∃ text rule, value.HasNumeral text ∧
        IsFirst (fun rule => rule.family.contains name = true) table.units rule ∧
        text ++ rule.unit = result := by
  rw [injectUnit, Option.bind_eq_some_iff]
  simp only [Option.map_eq_some_iff, find?_eq_some_iff_isFirst, numericText?_eq_some_iff,
    exists_and_left]

theorem injectUnit_eq_none_iff (table : RuleTable) (name : String) (value : Json) :
    table.injectUnit name value = none ↔
      ∀ text, value.HasNumeral text → ∀ rule ∈ table.units, ¬rule.family.contains name = true := by
  rw [injectUnit, Option.bind_eq_none_iff]
  simp only [Option.map_eq_none_iff, List.find?_eq_none, numericText?_eq_some_iff]

/-! ## Numbers and their texts -/

/-- A number takes the unit that its text takes. -/
theorem injectUnit_number (table : RuleTable) (name : String) (n : JsonNumber) :
    table.injectUnit name (.number n) = table.injectUnit name (.string n.cssText) := by
  have same : numericText? (.string n.cssText) = some n.cssText :=
    (numericText?_eq_some_iff _ _).2 (Json.HasNumeral.string (isNumeral_cssText n))
  rw [injectUnit, injectUnit, same, numericText?]

/-- A string takes a unit if it is a numeral and the name is of a family with units, and only then. -/
theorem exists_injectUnit_string_iff (table : RuleTable) (name text : String) :
    (∃ result, table.injectUnit name (.string text) = some result) ↔
      IsNumeral text.toList ∧ ∃ rule ∈ table.units, rule.family.contains name = true := by
  rw [← Option.ne_none_iff_exists', Ne, injectUnit_eq_none_iff]
  constructor
  · intro suffixed
    push Not at suffixed
    obtain ⟨own, numeral, rule, isRule, holds⟩ := suffixed
    cases numeral with
    | string numeral => exact ⟨numeral, rule, isRule, holds⟩
  · rintro ⟨numeral, rule, isRule, holds⟩ refused
    exact refused text (Json.HasNumeral.string numeral) rule isRule holds

/-- **Numbers and their texts take units alike.** The text of every number is a numeral, and the numerals
are the texts in which the pattern of numerals is found. Of the digits of a number this needs only that
there are some: they are a numeral with all their places, with a sign or without, wherever the point
stands. So under every name a number takes the unit that its text takes as a string, and a string takes a
unit only if all of it is a numeral. -/
theorem numbers_and_their_texts_take_units_alike (table : RuleTable) (name : String) :
    (∃ pattern, Pattern.parse? "^-?[0-9]+(\\.[0-9]+)?$" = some pattern ∧
      (∀ text, pattern.isIn text = true ↔ IsNumeral text.toList) ∧
      ∀ n : JsonNumber, pattern.isIn n.cssText = true) ∧
      (∀ d : Decimal, Decimal.IsDigitRun d.digits →
        IsNumeral (d.positional []) ∧ IsNumeral ('-' :: d.positional [])) ∧
      (∀ n : JsonNumber,
        table.injectUnit name (.number n) = table.injectUnit name (.string n.cssText)) ∧
      ∀ text, (∃ result, table.injectUnit name (.string text) = some result) ↔
        IsNumeral text.toList ∧ ∃ rule ∈ table.units, rule.family.contains name = true := by
  refine ⟨⟨numeralPattern, parse?_numeralPattern, isIn_numeral_iff, ?_⟩, ?_, ?_, ?_⟩
  · intro n
    exact (isIn_numeral_iff _).2 (isNumeral_cssText n)
  · intro d isRun
    have decimal := Decimal.isUnsigned_positional isRun
    exact ⟨IsNumeral.unsigned decimal, IsNumeral.negative decimal⟩
  · exact injectUnit_number table name
  · exact exists_injectUnit_string_iff table name

end RuleTable

end DesignTokens
