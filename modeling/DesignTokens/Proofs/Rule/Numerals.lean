import DesignTokens.Proofs.Decimal.Places
import DesignTokens.Proofs.Pattern.Languages
import DesignTokens.Rule.Table

/-!
# Numerals

A string takes a unit if it is a numeral: perhaps a minus sign, digits, and perhaps a point and more
digits (`isDecimal_iff`). These are the texts in which the pattern `^-?[0-9]+(\.[0-9]+)?$` is found
(`isIn_numeral_iff`). The text of every number is one, since numbers are written with all their places
(`isNumeral_cssChars`). So a number takes a unit as its text does
(`numbers_and_their_texts_take_units_alike`).
-/

set_option autoImplicit false

open scoped Computability

namespace DesignTokens

open Decimal

/-- A numeral: a decimal, perhaps with a minus sign. -/
inductive IsNumeral : List Char → Prop
  | unsigned {cs : List Char} (decimal : IsUnsigned cs) : IsNumeral cs
  | negative {cs : List Char} (decimal : IsUnsigned cs) : IsNumeral ('-' :: cs)

/-! ## Recognition -/

namespace RuleTable

theorem isDigits_iff (cs : List Char) : isDigits cs = true ↔ IsDigitRun cs := by
  rw [isDigits, isDigitRun_iff, Bool.and_eq_true, Bool.not_eq_true', List.isEmpty_eq_false_iff,
    List.all_eq_true]

theorem isUnsignedDecimal_iff (cs : List Char) : isUnsignedDecimal cs = true ↔ IsUnsigned cs := by
  have unpointed {run : List Char} (isRun : IsDigitRun run) : ∀ c ∈ run, (c != '.') = true := by
    intro c member
    have digit := isRun.digits c member
    rw [bne_iff_ne]
    rintro rfl
    exact absurd digit (by decide)
  rw [isUnsignedDecimal, List.span_eq_takeWhile_dropWhile]
  constructor
  · intro accepted
    have whole_append := List.takeWhile_append_dropWhile (p := (· != '.')) (l := cs)
    cases point : cs.dropWhile (· != '.') with
    | nil =>
        rw [point] at accepted whole_append
        rw [List.append_nil] at whole_append
        rw [← whole_append]
        exact IsUnsigned.whole ((isDigits_iff _).1 accepted)
    | cons c fraction =>
        -- What ends the whole part is a point.
        have isPoint := List.head_dropWhile_not (· != '.') (l := cs) (by simp [point])
        simp only [point, List.head_cons, bne_eq_false_iff_eq] at isPoint
        rw [point, isPoint] at whole_append
        rw [point] at accepted
        rw [← whole_append]
        obtain ⟨isWhole, isFraction⟩ := Bool.and_eq_true_iff.1 accepted
        exact IsUnsigned.fraction ((isDigits_iff _).1 isWhole) ((isDigits_iff _).1 isFraction)
  · intro decimal
    cases decimal with
    | whole isRun =>
        rw [List.takeWhile_eq_self_iff.2 (unpointed isRun), List.dropWhile_eq_nil_iff.2 (unpointed isRun)]
        exact (isDigits_iff _).2 isRun
    | @fraction whole fraction isWhole isFraction =>
        rw [List.takeWhile_append_of_pos (unpointed isWhole),
          List.dropWhile_append_of_pos (unpointed isWhole)]
        simp [(isDigits_iff _).2 isWhole, (isDigits_iff _).2 isFraction]

end RuleTable

/-- A decimal starts with a digit. -/
theorem exists_digit_of_isUnsigned {cs : List Char} (decimal : IsUnsigned cs) :
    ∃ c rest, cs = c :: rest ∧ c.isDigit = true := by
  cases decimal with
  | whole isRun =>
      obtain ⟨c, rest, rfl⟩ := List.exists_cons_of_ne_nil isRun.nonempty
      exact ⟨c, rest, rfl, isRun.digits c List.mem_cons_self⟩
  | fraction isWhole _ =>
      obtain ⟨c, rest, rfl⟩ := List.exists_cons_of_ne_nil isWhole.nonempty
      exact ⟨c, _, rfl, isWhole.digits c List.mem_cons_self⟩

theorem toNat_of_mem_digitRun {run : List Char} (isRun : IsDigitRun run) :
    ∀ c ∈ run, 45 ≤ c.toNat ∧ c.toNat ≤ 57 := by
  intro c member
  have digit := isRun.digits c member
  rw [Char.isDigit, Bool.and_eq_true, decide_eq_true_eq, decide_eq_true_eq] at digit
  have low : 48 ≤ c.toNat := digit.1
  have high : c.toNat ≤ 57 := digit.2
  omega

/-- The characters of a decimal lie between the hyphen and the digit nine, as the point does. -/
theorem toNat_of_mem_unsigned {cs : List Char} (decimal : IsUnsigned cs) :
    ∀ c ∈ cs, 45 ≤ c.toNat ∧ c.toNat ≤ 57 := by
  cases decimal with
  | whole isRun => exact toNat_of_mem_digitRun isRun
  | fraction isWhole isFraction =>
      exact List.forall_mem_append.2 ⟨toNat_of_mem_digitRun isWhole,
        List.forall_mem_cons.2 ⟨by decide, toNat_of_mem_digitRun isFraction⟩⟩

/-- The characters of a numeral lie between the hyphen and the digit nine. -/
theorem toNat_of_mem_numeral {cs : List Char} (numeral : IsNumeral cs) :
    ∀ c ∈ cs, 45 ≤ c.toNat ∧ c.toNat ≤ 57 := by
  cases numeral with
  | unsigned decimal => exact toNat_of_mem_unsigned decimal
  | negative decimal => exact List.forall_mem_cons.2 ⟨by decide, toNat_of_mem_unsigned decimal⟩

theorem exists_head_of_isNumeral {cs : List Char} (numeral : IsNumeral cs) :
    ∃ first rest, cs = first :: rest ∧ 45 ≤ first.toNat ∧ first.toNat ≤ 57 := by
  have nonempty : cs ≠ [] := by
    cases numeral with
    | negative _ => exact List.cons_ne_nil _ _
    | unsigned decimal =>
        obtain ⟨c, rest, rfl, -⟩ := exists_digit_of_isUnsigned decimal
        exact List.cons_ne_nil _ _
  obtain ⟨first, rest, rfl⟩ := List.exists_cons_of_ne_nil nonempty
  exact ⟨first, rest, rfl, toNat_of_mem_numeral numeral first List.mem_cons_self⟩

theorem RuleTable.isDecimal_iff (cs : List Char) : isDecimal cs = true ↔ IsNumeral cs := by
  unfold isDecimal
  split
  · next rest =>
      rw [isUnsignedDecimal_iff]
      constructor
      · exact IsNumeral.negative
      · intro numeral
        cases numeral with
        | negative decimal => exact decimal
        | unsigned decimal =>
            -- A decimal without a sign does not start with one.
            obtain ⟨c, others, same, digit⟩ := exists_digit_of_isUnsigned decimal
            rw [← (List.cons.inj same).1] at digit
            exact absurd digit (by decide)
  · next unsigned =>
      rw [isUnsignedDecimal_iff]
      constructor
      · exact IsNumeral.unsigned
      · intro numeral
        cases numeral with
        | unsigned decimal => exact decimal
        | negative decimal => exact absurd rfl (unsigned _)

/-! ## The pattern of numerals -/

/-- The digits, as a pattern has them. -/
def digitSet : CharSet := .union .none (.ranges [('0', '9')])

/-- The pattern of a run of digits. -/
def digitsPattern : Pattern := .repeated (.one digitSet) 1 none

/-- The pattern of numerals, `^-?[0-9]+(\.[0-9]+)?$`. -/
def numeralPattern : Pattern :=
  .sequence
    (.sequence
      (.sequence (.sequence (.assertion .textStart) (.repeated (.one (.char '-')) 0 (some 1)))
        digitsPattern)
      (.repeated (.sequence (.one (.char '.')) digitsPattern) 0 (some 1)))
    (.assertion .textEnd)

/-- The pattern as it is written. -/
theorem parse?_numeralPattern :
    Pattern.parse? "^-?[0-9]+(\\.[0-9]+)?$" = some numeralPattern := by decide

/-- The language of a run of digits. -/
def digitRuns : Language Char := digitSet.language ^ 1 * digitSet.language∗

theorem mem_digitRuns (run : List Char) : run ∈ digitRuns ↔ IsDigitRun run := by
  have contains_digitSet (c : Char) : digitSet.contains c = c.isDigit := by
    have digit : c.isDigit = (decide ('0' ≤ c) && decide (c ≤ '9')) := rfl
    simp [digitSet, CharSet.contains, CharSet.none, digit]
  simp only [digitRuns, CharSet.mem_run_language, contains_digitSet, isDigitRun_iff]

theorem mem_unsigned_language (text : List Char) :
    text ∈ digitRuns * (1 + (CharSet.char '.').language * digitRuns) ↔ IsUnsigned text := by
  rw [mul_add, mul_one, Language.mem_add, Language.mem_mul]
  simp only [CharSet.mem_char_mul, mem_digitRuns]
  constructor
  · rintro (isRun | ⟨whole, isWhole, _, ⟨fraction, isFraction, rfl⟩, rfl⟩)
    · exact IsUnsigned.whole isRun
    · exact IsUnsigned.fraction isWhole isFraction
  · intro decimal
    cases decimal with
    | whole isRun => exact Or.inl isRun
    | fraction isWhole isFraction => exact Or.inr ⟨_, isWhole, _, ⟨_, isFraction, rfl⟩, rfl⟩

/-- The pattern is found in the numerals and in no other text. -/
theorem isIn_numeral_iff (text : String) :
    numeralPattern.isIn text = true ↔ IsNumeral text.toList := by
  have sign := Pattern.takes_optional (Pattern.takes_one (CharSet.char '-'))
  have run : digitsPattern.Takes digitRuns := Pattern.takes_repeated (Pattern.takes_one digitSet) 1
  have point := Pattern.takes_optional
    (Pattern.takes_sequence (Pattern.takes_one (CharSet.char '.')) run)
  have signed := Pattern.takesAtStart_sequence Pattern.takesAtStart_textStart sign
  have whole := Pattern.takesAtStart_sequence (Pattern.takesAtStart_sequence signed run) point
  rw [numeralPattern, Pattern.isIn_to_end_iff whole, one_mul, mul_assoc, add_mul, one_mul,
    Language.mem_add, CharSet.mem_char_mul]
  simp only [mem_unsigned_language]
  constructor
  · rintro (decimal | ⟨rest, decimal, negative⟩)
    · exact IsNumeral.unsigned decimal
    · rw [negative]
      exact IsNumeral.negative decimal
  · intro numeral
    generalize text.toList = cs at numeral ⊢
    cases numeral with
    | unsigned decimal => exact Or.inl decimal
    | negative decimal => exact Or.inr ⟨_, decimal, rfl⟩

/-! ## The texts of numbers -/

theorem isUnsigned_renderMagnitude (x : Magnitude) :
    IsUnsigned (renderMagnitude JsonNumber.cssLayout x) := by
  unfold renderMagnitude
  cases zero : x.isZero with
  | true => exact IsUnsigned.whole isDigitRun_zero
  | false => exact isUnsigned_positional (isDigitRun_shortest _ zero)

/-- **The text of a number is a numeral.** -/
theorem isNumeral_cssChars (n : JsonNumber) : IsNumeral n.cssChars := by
  cases n with
  | integer value =>
      have decimal : IsUnsigned (Nat.toDigits 10 value.natAbs) :=
        IsUnsigned.whole (isDigitRun_toDigits value.natAbs)
      rw [JsonNumber.cssChars, JsonNumber.integerChars]
      split
      · exact IsNumeral.negative decimal
      · exact IsNumeral.unsigned decimal
  | float x =>
      have decimal := isUnsigned_renderMagnitude x.magnitude
      rw [JsonNumber.cssChars]
      split
      · -- Zero is written without its sign.
        exact IsNumeral.unsigned (IsUnsigned.whole isDigitRun_zero)
      · dsimp only
        split
        · exact IsNumeral.negative decimal
        · exact IsNumeral.unsigned decimal

theorem isNumeral_cssText (n : JsonNumber) : IsNumeral n.cssText.toList := by
  rw [JsonNumber.cssText, String.toList_ofList]
  exact isNumeral_cssChars n

end DesignTokens
