import DesignTokens.Proofs.Name.Spelling
import DesignTokens.Proofs.Resolution.Precedence
import DesignTokens.Proofs.Rule.BuiltIn

/-!
# Settled values

A value is settled under a name if nothing rewrites it there (`RuleTable.Settled`). Under the built-in
rules and any further families of pixel lengths, whatever a rule or a reference makes of a value is a text
that starts with a letter or as a numeral does, but is no numeral; such a text is settled
(`settled_of_plain`). So a resolved value is settled, and normalizing a normalized token changes nothing
(`normalized_tokens_are_settled`).
-/

set_option autoImplicit false

namespace DesignTokens

namespace RuleTable

/-! ## Settled values -/

/-- Nothing rewrites a value under a name: no keyword rule and no unit rule applies, and the value is no
reference. -/
structure Settled (table : RuleTable) (name : String) (value : Json) : Prop where
  noKeyword : ∀ rule ∈ table.keywords, ¬rule.AppliesTo name value
  noReference : ∀ path, ¬value.IsReference path
  noUnit : ∀ text, value.HasNumeral text → ∀ rule ∈ table.units, ¬rule.family.contains name = true

theorem Settled.resolve_eq {table : RuleTable} {name : String} {value : Json}
    (settled : table.Settled name value) : table.resolve name value = ⟨value, .literal⟩ :=
  (Resolves.unchanged settled.noKeyword settled.noReference settled.noUnit).resolve_eq

/-! ## Further pixel families -/

/-- The tables that come from the built-in one when families of pixel lengths are added, one after the
other, whatever names they hold. -/
inductive IsPixelExtension : RuleTable → Prop
  | base : IsPixelExtension builtIn
  | add {table : RuleTable} (extension : IsPixelExtension table) (names : Family) :
      IsPixelExtension (table.add (.unit ⟨names, Rule.pixel⟩))

section Extension

variable {table : RuleTable} (extension : IsPixelExtension table)

include extension

/-- A rule for pixel lengths that is read from a pattern adds one more family. -/
theorem IsPixelExtension.add_appendingPixel {family : String} {rule : Rule}
    (made : Rule.appendingPixel family = .ok rule) : IsPixelExtension (table.add rule) := by
  rw [Rule.appendingPixel, Rule.appending] at made
  cases read : Family.parse family with
  | error cause =>
      rw [read] at made
      exact absurd made (by simp [Except.map])
  | ok names =>
      rw [read] at made
      rw [← Except.ok.inj made]
      exact extension.add names

/-- Pixel families leave the keyword rules as they are. -/
theorem IsPixelExtension.keywords_eq : table.keywords = builtIn.keywords := by
  induction extension with
  | base => rfl
  | add _ names ih => exact ih

/-- All units are pixels. -/
theorem IsPixelExtension.unit_eq : ∀ rule ∈ table.units, rule.unit = Rule.pixel := by
  induction extension with
  | base =>
      intro rule member
      obtain ⟨start, -, rfl⟩ := List.mem_map.1 member
      rfl
  | add _ names ih =>
      intro rule member
      rcases List.mem_append.1 member with old | new
      · exact ih rule old
      · rw [List.mem_singleton.1 new]

/-- The only keyword that is replaced is `AUTO`, by `normal`. -/
theorem IsPixelExtension.keyword_eq {rule : KeywordRule} (member : rule ∈ table.keywords) :
    rule.literal = "AUTO" ∧ rule.replacement = "normal" := by
  rw [extension.keywords_eq] at member
  obtain rfl := List.mem_singleton.1 member
  exact ⟨rfl, rfl⟩

end Extension

/-! ## Plain texts -/

/-- An ASCII character with which neither the keyword `AUTO` nor a reference starts. -/
def IsPlain (c : Char) : Prop :=
  c.toNat < 128 ∧ c.toUpper ≠ 'A' ∧ Text.isBlank c = false ∧ Reference.isBrace c = false

instance (c : Char) : Decidable (IsPlain c) := inferInstanceAs (Decidable (_ ∧ _))

/-- The upper case of a text that starts with ASCII starts with the upper case of its start. -/
theorem upper_ne_of_head {text keyword : String} {first keywordFirst : Char}
    {rest keywordRest : List Char} (starts : text.toList = first :: rest) (ascii : first.toNat < 128)
    (keywordStarts : keyword.toList = keywordFirst :: keywordRest)
    (other : first.toUpper ≠ keywordFirst) : keyword ≠ Text.upper text := by
  rintro rfl
  rw [Text.upper, String.toList_ofList, Text.upperChars, starts, List.flatMap_cons,
    Text.upperChar_of_ascii ascii] at keywordStarts
  exact other (List.cons.inj keywordStarts).1

/-- **A text that starts plainly and is no numeral is settled.** -/
theorem settled_of_plain {table : RuleTable} (extension : IsPixelExtension table) (name : String)
    {text : String} {first : Char} {rest : List Char} (starts : text.toList = first :: rest)
    (plain : IsPlain first) (noNumeral : ¬IsNumeral text.toList) :
    table.Settled name (.string text) := by
  obtain ⟨ascii, noKeyword, visible, noBrace⟩ := plain
  constructor
  · rintro rule member ⟨-, own, written, isKeyword⟩
    rw [(extension.keyword_eq member).1, ← Option.some.inj written] at isKeyword
    exact upper_ne_of_head starts ascii rfl noKeyword isKeyword
  · exact not_isReference_of_head starts visible noBrace
  · intro own numeral
    cases numeral with
    | string numeral => exact absurd numeral noNumeral

theorem toUpper_of_between {c : Char} (high : c.toNat ≤ 57) : c.toUpper = c := by
  unfold Char.toUpper
  split
  · next lower =>
      have low : 97 ≤ c.toNat := lower.1
      omega
  · rfl

/-- Numerals start plainly. -/
theorem isPlain_of_between {c : Char} (low : 45 ≤ c.toNat) (high : c.toNat ≤ 57) : IsPlain c := by
  refine ⟨by omega, ?_, isBlank_of_between low high, isBrace_of_between high⟩
  rw [toUpper_of_between high]
  rintro rfl
  exact absurd high (by decide)

/-- A text with a letter is no numeral. -/
theorem not_isNumeral_of_letter {text : String} {c : Char} (member : c ∈ text.toList)
    (letter : 57 < c.toNat) : ¬IsNumeral text.toList := by
  intro numeral
  have bound := (toNat_of_mem_numeral numeral c member).2
  omega

/-- A numeral with pixels is no numeral. -/
theorem not_isNumeral_pixel (text : String) : ¬IsNumeral (text ++ Rule.pixel).toList := by
  have unitLetter : 'x' ∈ (text ++ Rule.pixel).toList := by
    rw [String.toList_append]
    exact List.mem_append_right _ (by decide)
  exact not_isNumeral_of_letter unitLetter (by decide)

/-- A text that starts with a letter is no numeral. -/
theorem not_isNumeral_of_head {text : String} {first : Char} {rest : List Char}
    (starts : text.toList = first :: rest) (letter : 57 < first.toNat) : ¬IsNumeral text.toList := by
  have member : first ∈ text.toList := by
    rw [starts]
    exact List.mem_cons_self
  exact not_isNumeral_of_letter member letter

/-! ## Resolved values -/

/-- A numeral that has a text has it as a numeral. -/
theorem isNumeral_of_hasNumeral {value : Json} {text : String} (numeral : value.HasNumeral text) :
    IsNumeral text.toList := by
  cases numeral with
  | number n => exact isNumeral_cssText n
  | string numeral => exact numeral

/-- **What a value is resolved to is settled**, whichever of the four ways it goes. -/
theorem Resolves.settled {table : RuleTable} (extension : IsPixelExtension table) {name : String}
    {value : Json} {resolved : Resolved} (h : table.Resolves name value resolved) :
    table.Settled name resolved.value := by
  cases h with
  | keyword first =>
      -- A substituted keyword is stable.
      have starts : "normal".toList = 'n' :: "ormal".toList := rfl
      rw [(extension.keyword_eq first.mem).2]
      exact settled_of_plain extension name starts (by decide) (not_isNumeral_of_head starts (by decide))
  | @reference path _ _ =>
      -- A translated reference is not rewritten again.
      have starts : ("var(--" ++ canonicalText path ++ ")").toList =
          'v' :: ("ar(--".toList ++ (canonicalText path).toList ++ ")".toList) := by
        rw [String.toList_append, String.toList_append]
        rfl
      exact settled_of_plain extension name starts (by decide) (not_isNumeral_of_head starts (by decide))
  | @unit text rule _ _ numeral first =>
      -- No unit is appended twice: a numeral with pixels starts as the numeral does, and is none.
      obtain ⟨start, rest, starts, low, high⟩ :=
        exists_head_of_isNumeral (isNumeral_of_hasNumeral numeral)
      have suffixed : (text ++ Rule.pixel).toList = start :: (rest ++ Rule.pixel.toList) := by
        rw [String.toList_append, starts, List.cons_append]
      rw [extension.unit_eq rule first.mem]
      exact settled_of_plain extension name suffixed (isPlain_of_between low high)
        (not_isNumeral_pixel text)
  | unchanged noKeyword noReference noUnit => exact ⟨noKeyword, noReference, noUnit⟩

/-- **Normalized tokens are settled.** Under the built-in rules and any further families of pixel lengths
nothing rewrites the value of a normalized token under its name, so that normalizing the token again gives
the same name and the same value, now as a literal. -/
theorem normalized_tokens_are_settled {table : RuleTable} (extension : IsPixelExtension table)
    {rawName : String} {value : Json} {name : CanonicalName} {resolved : Resolved}
    (normal : table.normalize? rawName value = some (name, resolved)) :
    table.Settled name.text resolved.value ∧
      table.normalize? name.text resolved.value = some (name, ⟨resolved.value, .literal⟩) := by
  obtain ⟨derived, -, same⟩ := Option.map_eq_some_iff.1 normal
  obtain ⟨rfl, rfl⟩ := Prod.mk.inj same
  have settled := (resolves_resolve table derived.text value).settled extension
  refine ⟨settled, ?_⟩
  rw [normalize?, derived.derive?_text_self, Option.map_some, settled.resolve_eq]

/-- The built-in rules and one family more. -/
def radiusTable : RuleTable :=
  builtIn.add (.unit ⟨⟨"^radius-", startPattern "radius-".toList⟩, Rule.pixel⟩)

theorem isPixelExtension_radiusTable : IsPixelExtension radiusTable := by
  have read : Pattern.parse? "^radius-" = some (startPattern "radius-".toList) := by decide
  have made : Rule.appendingPixel "^radius-" =
      .ok (.unit ⟨⟨"^radius-", startPattern "radius-".toList⟩, Rule.pixel⟩) := by
    rw [Rule.appendingPixel, Rule.appending, Family.parse, read]
    rfl
  exact IsPixelExtension.base.add_appendingPixel made

/-- The final name of `Radius.Small`. -/
def radiusName : CanonicalName := ⟨"radius-small", by decide⟩

/-- A radius has its unit once, also when it is normalized twice. -/
theorem normalized_radius_is_settled :
    IsPixelExtension radiusTable ∧
      radiusTable.normalize? "Radius.Small" (.string "2") =
        some (radiusName, ⟨.string "2px", .literal⟩) ∧
      radiusTable.normalize? "radius-small" (.string "2px") =
        some (radiusName, ⟨.string "2px", .literal⟩) := by
  have normal : radiusTable.normalize? "Radius.Small" (.string "2") =
      some (radiusName, ⟨.string "2px", .literal⟩) := rfl
  exact ⟨isPixelExtension_radiusTable, normal,
    (normalized_tokens_are_settled isPixelExtension_radiusTable normal).2⟩

end RuleTable

end DesignTokens
