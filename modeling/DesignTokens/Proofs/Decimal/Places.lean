import DesignTokens.CssText
import Mathlib.Algebra.Order.Floor.Div
import Mathlib.Data.List.DropRight

/-!
# All places of a decimal

A decimal with all its places is digits, and perhaps a point and more digits (`IsUnsigned`). That holds
of every run of digits with any exponent (`isUnsigned_positional`), wherever the point comes to stand. The
shortest decimal of a magnitude that is not zero has such a run: the neighbours that are tried on the
decimal grids read back (`contains_of_onGrid?`), as zero does not, and seventeen digits from the leading
one on are not zero either (`seventeen_digits_pos`).
-/

set_option autoImplicit false

namespace DesignTokens

namespace Decimal

/-! ## Runs of digits -/

/-- A run of digits, one or more. -/
@[mk_iff]
structure IsDigitRun (cs : List Char) : Prop where
  nonempty : cs ≠ []
  digits : ∀ c ∈ cs, c.isDigit = true

/-- A decimal without a sign: digits, and perhaps a point and more digits. -/
inductive IsUnsigned : List Char → Prop
  | whole {digits : List Char} (isRun : IsDigitRun digits) : IsUnsigned digits
  | fraction {whole fraction : List Char} (isWhole : IsDigitRun whole)
      (isFraction : IsDigitRun fraction) : IsUnsigned (whole ++ '.' :: fraction)

theorem isDigit_of_mem_zeros {n : Nat} : ∀ c ∈ List.replicate n '0', c.isDigit = true := by
  intro c member
  rw [List.eq_of_mem_replicate member]
  rfl

theorem IsDigitRun.append {run more : List Char} (isRun : IsDigitRun run)
    (digits : ∀ c ∈ more, c.isDigit = true) : IsDigitRun (run ++ more) :=
  ⟨List.append_ne_nil_of_left_ne_nil isRun.nonempty more,
    List.forall_mem_append.2 ⟨isRun.digits, digits⟩⟩

theorem IsDigitRun.behind {run before : List Char} (isRun : IsDigitRun run)
    (digits : ∀ c ∈ before, c.isDigit = true) : IsDigitRun (before ++ run) :=
  ⟨List.append_ne_nil_of_right_ne_nil before isRun.nonempty,
    List.forall_mem_append.2 ⟨digits, isRun.digits⟩⟩

theorem isDigitRun_zero : IsDigitRun ['0'] :=
  ⟨List.cons_ne_nil _ _, List.forall_mem_singleton.2 rfl⟩

theorem isDigitRun_toDigits (n : Nat) : IsDigitRun (Nat.toDigits 10 n) := by
  refine ⟨Nat.toDigits_ne_nil, ?_⟩
  intro c member
  exact Nat.isDigit_of_mem_toDigits (by decide) (by decide) member

/-! ## The point -/

/-- **A run of digits with all its places is a decimal**, whatever the exponent is. -/
theorem isUnsigned_positional {d : Decimal} (isRun : IsDigitRun d.digits) :
    IsUnsigned (d.positional []) := by
  unfold positional
  split
  · -- A whole part of zero, and all digits behind the point.
    exact IsUnsigned.fraction isDigitRun_zero (isRun.behind isDigit_of_mem_zeros)
  · dsimp only
    split
    · rw [List.append_nil]
      exact IsUnsigned.whole (isRun.append isDigit_of_mem_zeros)
    · next long =>
        apply IsUnsigned.fraction
        · refine ⟨?_, fun c member => isRun.digits c (List.mem_of_mem_take member)⟩
          rw [Ne, List.take_eq_nil_iff, not_or]
          exact ⟨Nat.succ_ne_zero _, isRun.nonempty⟩
        · refine ⟨?_, fun c member => isRun.digits c (List.mem_of_mem_drop member)⟩
          rw [Ne, List.drop_eq_nil_iff]
          exact long

/-! ## The shortest digits -/

/-- The zeros at the end are not all digits of a number that is not zero. -/
theorem isDigitRun_ofScaled {n : Nat} (positive : 0 < n) (k : Int) :
    IsDigitRun (ofScaled n k).digits := by
  show IsDigitRun ((Nat.toDigits 10 n).rdropWhile (· == '0'))
  constructor
  · intro empty
    have zeros : Nat.toDigits 10 n = List.replicate (Nat.toDigits 10 n).length '0' := by
      apply List.eq_replicate_iff.2
      refine ⟨rfl, fun c member => ?_⟩
      simpa using List.rdropWhile_eq_nil_iff.1 empty c member
    have value : Nat.ofDigitChars 10 (Nat.toDigits 10 n) 0 = 0 := by
      rw [zeros, Nat.ofDigitChars_replicate_zero, Nat.mul_zero]
    rw [Nat.ofDigitChars_ten_toDigits] at value
    omega
  · intro c member
    exact (isDigitRun_toDigits n).digits c ((List.rdropWhile_prefix _ _).subset member)

/-- Zero does not read back as a magnitude that is not zero. -/
theorem low_ofMagnitude_pos {x : Magnitude} (nonzero : x.isZero = false) :
    0 < (Interval.ofMagnitude x).low := by
  have unit_pos : 0 < Nat.pow 2 x.scale := Nat.pow_pos (by decide)
  have unit_le : Nat.pow 2 x.scale ≤ x.units := by
    have significand_pos : 0 < x.significand := by
      rw [Magnitude.isZero, beq_eq_false_iff_ne] at nonzero
      exact Nat.pos_of_ne_zero nonzero
    exact Nat.le_mul_of_pos_left _ significand_pos
  simp only [Interval.ofMagnitude]
  split <;> omega

theorem Interval.denominator_pos : 0 < denominator := by
  -- For all exponents, so that the power is not evaluated.
  have power_pos (n : Nat) : 0 < 4 * Nat.pow 2 n :=
    Nat.mul_pos (by decide) (Nat.pow_pos (by decide))
  unfold denominator Magnitude.unitsPerOne
  apply power_pos

theorem contains_zero {i : Interval} (low_pos : 0 < i.low) {up : Nat} (up_pos : 0 < up) :
    i.contains up 0 = false := by
  have scaled_pos : 0 < i.low * up := Nat.mul_pos low_pos up_pos
  unfold Interval.contains
  split
  · have above : ¬i.low * up ≤ 0 := by omega
    simp [above]
  · simp

/-- What is found on a grid reads back: each of the two neighbours is taken only if it lies in the
interval. -/
theorem contains_of_onGrid? {tie : Tie} {i : Interval} {k : Int} {n : Nat}
    (found : onGrid? tie i k = some n) :
    i.contains (Nat.pow 10 (-k).toNat) (n * (Nat.pow 10 k.toNat * Interval.denominator)) = true := by
  unfold onGrid? at found
  dsimp only at found
  generalize Nat.pow 10 k.toNat * Interval.denominator = step at found ⊢
  split at found
  · next below above =>
      -- Both neighbours read back, whichever is nearer.
      split at found
      · rwa [← Option.some.inj found]
      · split at found
        · rwa [← Option.some.inj found]
        · cases tie with
          | even =>
              dsimp only at found
              split at found
              · rwa [← Option.some.inj found]
              · rwa [← Option.some.inj found]
          | up => rwa [← Option.some.inj found]
  · next below _ => rwa [← Option.some.inj found]
  · next _ above => rwa [← Option.some.inj found]
  · exact absurd found (by simp)

/-- What is found on a grid is not zero, since zero lies below the interval. -/
theorem onGrid?_pos {tie : Tie} {i : Interval} {k : Int} {n : Nat} (low_pos : 0 < i.low)
    (found : onGrid? tie i k = some n) : 0 < n := by
  have inside := contains_of_onGrid? found
  have up_pos : 0 < Nat.pow 10 (-k).toNat := Nat.pow_pos (by decide)
  apply Nat.pos_of_ne_zero
  rintro rfl
  rw [Nat.zero_mul, contains_zero low_pos up_pos] at inside
  exact absurd inside (by decide)

/-! ## The leading place -/

theorem lt_pow_length_toDigits (n : Nat) : n < 10 ^ (Nat.toDigits 10 n).length :=
  (Nat.length_toDigits_le_iff (by decide) Nat.length_toDigits_pos).1 (Nat.le_refl _)

theorem pow_length_toDigits_le {n : Nat} (positive : 0 < n) :
    10 ^ ((Nat.toDigits 10 n).length - 1) ≤ n := by
  by_cases single : (Nat.toDigits 10 n).length - 1 = 0
  · rw [single]
    exact positive
  · have longer := mt (Nat.length_toDigits_le_iff (b := 10) (n := n) (by decide)
      (Nat.pos_of_ne_zero single)).2
    have := Nat.length_toDigits_pos (b := 10) (n := n)
    have : ¬n < 10 ^ ((Nat.toDigits 10 n).length - 1) := longer (by omega)
    omega

/-- The leading place of a quotient is not above the quotient. -/
theorem pow_leadingExponent_le {num den : Nat} (num_pos : 0 < num) (den_pos : 0 < den) :
    10 ^ (leadingExponent num den).toNat * den ≤ num * 10 ^ (-leadingExponent num den).toNat := by
  unfold leadingExponent
  split
  · next large =>
      have place := pow_length_toDigits_le (Nat.div_pos large den_pos)
      have length_pos := Nat.length_toDigits_pos (b := 10) (n := num / den)
      have up : (((Nat.toDigits 10 (num / den)).length : Int) - 1).toNat =
          (Nat.toDigits 10 (num / den)).length - 1 := by omega
      have down : (-(((Nat.toDigits 10 (num / den)).length : Int) - 1)).toNat = 0 := by omega
      rw [up, down, Nat.pow_zero, Nat.mul_one]
      exact (Nat.le_div_iff_mul_le den_pos).1 place
  · have place := lt_pow_length_toDigits ((den + num - 1) / num - 1)
    generalize (Nat.toDigits 10 ((den + num - 1) / num - 1)).length = length at place ⊢
    have up : (-(length : Int)).toNat = 0 := by omega
    have down : (-(-(length : Int))).toNat = length := by omega
    have rounded : den ⌈/⌉ num ≤ 10 ^ length := by
      rw [Nat.ceilDiv_eq_add_pred_div]
      omega
    rw [up, down, Nat.pow_zero, Nat.one_mul]
    exact (ceilDiv_le_iff_le_mul num_pos).1 rounded

/-- Seventeen digits from the leading place on are not zero. -/
theorem seventeen_digits_pos {num den : Nat} (num_pos : 0 < num) (den_pos : 0 < den) :
    0 < num * Nat.pow 10 (16 - leadingExponent num den).toNat /
      (Nat.pow 10 (leadingExponent num den - 16).toNat * den) := by
  have place := pow_leadingExponent_le num_pos den_pos
  generalize leadingExponent num den = e at place ⊢
  have step_pos : 0 < 10 ^ (e - 16).toNat * den := Nat.mul_pos (Nat.pow_pos (by decide)) den_pos
  apply Nat.div_pos _ step_pos
  calc 10 ^ (e - 16).toNat * den
      ≤ 10 ^ e.toNat * den :=
        Nat.mul_le_mul_right den (Nat.pow_le_pow_right (by decide) (by omega))
    _ ≤ num * 10 ^ (-e).toNat := place
    _ ≤ num * 10 ^ (16 - e).toNat :=
        Nat.mul_le_mul_left num (Nat.pow_le_pow_right (by decide) (by omega))

/-- **The shortest decimal of a magnitude has digits**, unless the magnitude is zero. -/
theorem isDigitRun_shortest (tie : Tie) {x : Magnitude} (nonzero : x.isZero = false) :
    IsDigitRun (shortest tie x).digits := by
  have low_pos := low_ofMagnitude_pos nonzero
  unfold shortest
  dsimp only
  cases found : (List.range 17).findSome? fun (n : Nat) =>
      (onGrid? tie (Interval.ofMagnitude x)
        (leadingExponent (Interval.ofMagnitude x).value Interval.denominator - n)).map fun multiple =>
          ofScaled multiple
            (leadingExponent (Interval.ofMagnitude x).value Interval.denominator - n) with
  | some d =>
      -- A grid has a decimal that reads back.
      obtain ⟨n, -, onGrid⟩ := List.exists_of_findSome?_eq_some found
      obtain ⟨multiple, hit, rfl⟩ := Option.map_eq_some_iff.1 onGrid
      exact isDigitRun_ofScaled (onGrid?_pos low_pos hit) _
  | none =>
      -- None has, and the value is cut off after seventeen digits.
      have value_pos : 0 < (Interval.ofMagnitude x).value := by
        have : (Interval.ofMagnitude x).low ≤ (Interval.ofMagnitude x).value := Nat.sub_le _ _
        omega
      exact isDigitRun_ofScaled (seventeen_digits_pos value_pos Interval.denominator_pos) _

end Decimal

end DesignTokens
