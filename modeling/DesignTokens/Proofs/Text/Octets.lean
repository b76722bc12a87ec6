import DesignTokens.Text.Utf8

/-!
# Texts and their octets

Octets are read as the text whose octets they are, and no others are read (`decode?_eq_some_iff`). So
a text is told by its octets, and octets that are a text are shown as that text (`shown_octets`).
-/

set_option autoImplicit false

namespace DesignTokens

/-- The text of octets is the one whose octets they are. -/
theorem fromUTF8?_eq_some_iff {octets : ByteArray} {text : String} :
    String.fromUTF8? octets = some text ↔ octets = text.toUTF8 := by
  rw [String.fromUTF8?]
  constructor
  · intro h
    split at h
    · obtain rfl := Option.some.inj h
      rfl
    · exact absurd h (by simp)
  · rintro rfl
    rw [dif_pos (show text.toUTF8.IsValidUTF8 from text.isValidUTF8)]
    rfl

namespace Utf8

/-! ## Reading octets -/

/-- The octets of a text are those of its UTF-8 form. -/
theorem octets_eq (text : String) : octets text = text.toUTF8.data.toList := by
  rw [octets, String.toUTF8, ← String.utf8Encode_toList, List.utf8Encode, List.data_toByteArray]

theorem decode?_eq_some_iff {bytes : List UInt8} {text : String} :
    decode? bytes = some text ↔ bytes = octets text := by
  rw [decode?, fromUTF8?_eq_some_iff, octets_eq]
  constructor
  · intro same
    rw [← same]
  · rintro rfl
    rfl

/-- Different texts have different octets. -/
@[simp] theorem octets_inj {first second : String} :
    octets first = octets second ↔ first = second := by
  refine ⟨fun same => ?_, congrArg octets⟩
  have read := decode?_eq_some_iff.2 same
  rw [decode?_eq_some_iff.2 rfl] at read
  exact Option.some.inj read

/-! ## Showing octets -/

/-- Octets that are a text are shown as that text. -/
theorem shown_octets (text : String) : shown (octets text) = text := by
  rw [shown, decode?_eq_some_iff.2 rfl, Option.getD_some]

end Utf8

end DesignTokens
