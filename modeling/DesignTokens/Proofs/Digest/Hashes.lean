import DesignTokens.Proofs.Digest.Reading

/-!
# Digests that are hashes

Base64url has four digits for three octets, so a text of digits encodes octets only if its last digit
leaves no bit beside them (`Base64Url.exists_encode_eq_iff`). The encodings of 32 octets are the texts
of 43 digits of which this holds (`Digest.isHash_iff`). Validation does not ask for it, and admits every
text of 43 digits (`Digest.isHashUpToSpareBits_iff`).
-/

set_option autoImplicit false

namespace DesignTokens

namespace Base64Url

/-- Every digit is the character of a value below 64. -/
theorem exists_digit {c : Char} (h : isDigit c = true) : ∃ n < 64, digit n = c := by
  have kinds : isDigit c =
      (c.isUpper || c.isLower || c.isDigit || c == '-' || c == '_') := rfl
  rw [kinds] at h
  simp only [Bool.or_eq_true, beq_iff_eq] at h
  rcases h with (((upper | lower) | decimal) | rfl) | rfl
  · obtain ⟨least, greatest⟩ : 65 ≤ c.toNat ∧ c.toNat ≤ 90 := of_decide_eq_true upper
    refine ⟨c.toNat - 65, by omega, ?_⟩
    rw [digit, if_pos (by omega), Nat.add_sub_cancel' least, Char.ofNat_toNat]
  · obtain ⟨least, greatest⟩ := Bool.and_eq_true_iff.1 lower
    have low : 97 ≤ c.toNat := of_decide_eq_true least
    have high : c.toNat ≤ 122 := of_decide_eq_true greatest
    refine ⟨c.toNat - 71, by omega, ?_⟩
    rw [digit, if_neg (by omega), if_pos (by omega), Nat.add_sub_cancel' (by omega),
      Char.ofNat_toNat]
  · obtain ⟨least, greatest⟩ := Bool.and_eq_true_iff.1 decimal
    have low : 48 ≤ c.toNat := of_decide_eq_true least
    have high : c.toNat ≤ 57 := of_decide_eq_true greatest
    refine ⟨c.toNat + 4, by omega, ?_⟩
    rw [digit, if_neg (by omega), if_neg (by omega), if_pos (by omega), Nat.add_sub_cancel,
      Char.ofNat_toNat]
  · exact ⟨62, by decide, by decide⟩
  · exact ⟨63, by decide, by decide⟩

/-- The digits whose values are multiples of a number. -/
def isDigitOf (step : Nat) (c : Char) : Bool :=
  (List.range (64 / step)).any fun n => digit (step * n) == c

/-- Whether the digits at the end of a text fill whole octets: the bits that the last digit has beside
them are zero. -/
def fillsOctets : List Char → Bool
  | _ :: _ :: _ :: _ :: rest => fillsOctets rest
  | [_, _, last] => isDigitOf 4 last
  | [_, last] => isDigitOf 16 last
  | [_] => false
  | [] => true

theorem isDigitOf_iff (step : Nat) (c : Char) :
    isDigitOf step c = true ↔ ∃ n < 64 / step, digit (step * n) = c := by
  simp [isDigitOf]

theorem fillsOctets_encode (octets : List UInt8) : fillsOctets (encode octets) = true := by
  fun_induction encode octets with
  | case1 a b c rest n ih => exact ih
  | case2 a b n =>
      refine (isDigitOf_iff _ _).2 ⟨n % 16, by omega, ?_⟩
      rw [Nat.mul_comm]
  | case3 a =>
      refine (isDigitOf_iff _ _).2 ⟨a.toNat % 4, by omega, ?_⟩
      rw [Nat.mul_comm]
  | case4 => rfl

/-- Four digits encode three octets. -/
theorem exists_encode_group {v w x y : Nat} (hv : v < 64) (hw : w < 64) (hx : x < 64)
    (hy : y < 64) :
    ∃ a b c, ∀ rest, encode (a :: b :: c :: rest) =
      digit v :: digit w :: digit x :: digit y :: encode rest := by
  -- The 24 bits of the group, of which each octet is the remainder by 256 of what is left.
  obtain ⟨n, whole⟩ : ∃ n, n = v * 262144 + w * 4096 + x * 64 + y := ⟨_, rfl⟩
  refine ⟨.ofNat (n / 65536), .ofNat (n / 256), .ofNat n, fun rest => ?_⟩
  have octets : n / 65536 % 256 * 65536 + n / 256 % 256 * 256 + n % 256 = n := by omega
  have first : n / 262144 = v := by omega
  have second : n / 4096 % 64 = w := by omega
  have third : n / 64 % 64 = x := by omega
  have fourth : n % 64 = y := by omega
  simp only [encode, UInt8.toNat_ofNat', Nat.reducePow, octets, first, second, third, fourth]

/-- Three digits encode two octets, if the last one leaves no bit. -/
theorem exists_encode_pair {v w x : Nat} (hv : v < 64) (hw : w < 64) (hx : x < 16) :
    ∃ a b, encode [a, b] = [digit v, digit w, digit (4 * x)] := by
  obtain ⟨n, whole⟩ : ∃ n, n = v * 1024 + w * 16 + x := ⟨_, rfl⟩
  refine ⟨.ofNat (n / 256), .ofNat n, ?_⟩
  have octets : n / 256 % 256 * 256 + n % 256 = n := by omega
  have first : n / 1024 = v := by omega
  have second : n / 16 % 64 = w := by omega
  have third : n % 16 * 4 = 4 * x := by omega
  simp only [encode, UInt8.toNat_ofNat', Nat.reducePow, octets, first, second, third]

/-- Two digits encode one octet, if the last one leaves no bit. -/
theorem exists_encode_single {v w : Nat} (hv : v < 64) (hw : w < 4) :
    ∃ a, encode [a] = [digit v, digit (16 * w)] := by
  refine ⟨.ofNat (v * 4 + w), ?_⟩
  have octet : (v * 4 + w) % 256 = v * 4 + w := by omega
  have first : (v * 4 + w) / 4 = v := by omega
  have second : (v * 4 + w) % 4 * 16 = 16 * w := by omega
  simp only [encode, UInt8.toNat_ofNat', Nat.reducePow, octet, first, second]

/-- The texts that encode octets: digits that fill whole octets. -/
theorem exists_encode_eq_iff (cs : List Char) :
    (∃ octets, encode octets = cs) ↔
      (∀ c ∈ cs, isDigit c = true) ∧ fillsOctets cs = true := by
  constructor
  · rintro ⟨octets, rfl⟩
    exact ⟨fun c member => isDigit_of_mem_encode member, fillsOctets_encode octets⟩
  · rintro ⟨digits, fills⟩
    fun_induction fillsOctets cs with
    | case1 c₁ c₂ c₃ c₄ rest ih =>
        simp only [List.forall_mem_cons] at digits
        obtain ⟨d₁, d₂, d₃, d₄, later⟩ := digits
        obtain ⟨v, hv, rfl⟩ := exists_digit d₁
        obtain ⟨w, hw, rfl⟩ := exists_digit d₂
        obtain ⟨x, hx, rfl⟩ := exists_digit d₃
        obtain ⟨y, hy, rfl⟩ := exists_digit d₄
        obtain ⟨octets, rfl⟩ := ih later fills
        obtain ⟨a, b, c, group⟩ := exists_encode_group hv hw hx hy
        exact ⟨a :: b :: c :: octets, group octets⟩
    | case2 c₁ c₂ last =>
        simp only [List.forall_mem_cons] at digits
        obtain ⟨v, hv, rfl⟩ := exists_digit digits.1
        obtain ⟨w, hw, rfl⟩ := exists_digit digits.2.1
        obtain ⟨x, hx, rfl⟩ := (isDigitOf_iff _ _).1 fills
        obtain ⟨a, b, pair⟩ := exists_encode_pair hv hw hx
        exact ⟨[a, b], pair⟩
    | case3 c₁ last =>
        obtain ⟨v, hv, rfl⟩ := exists_digit (List.forall_mem_cons.1 digits).1
        obtain ⟨w, hw, rfl⟩ := (isDigitOf_iff _ _).1 fills
        obtain ⟨a, single⟩ := exists_encode_single hv hw
        exact ⟨[a], single⟩
    | case4 => exact absurd fills (by simp)
    | case5 => exact ⟨[], rfl⟩

/-- Where three digits stand beyond whole groups, the last one has two bits to leave. -/
theorem fillsOctets_of_length {cs : List Char} (three : cs.length % 4 = 3) :
    fillsOctets cs = true ↔ ∃ n < 16, cs.getLast? = some (digit (4 * n)) := by
  fun_induction fillsOctets cs with
  | case1 c₁ c₂ c₃ c₄ rest ih =>
      -- Something is left behind the group, and with it the last digit.
      simp only [List.length_cons] at three
      have nonempty : rest ≠ [] := by
        rintro rfl
        exact absurd three (by decide)
      have last : (c₁ :: c₂ :: c₃ :: c₄ :: rest).getLast? = rest.getLast? :=
        List.getLast?_append_of_ne_nil [c₁, c₂, c₃, c₄] nonempty
      rw [last]
      exact ih (by omega)
  | case2 c₁ c₂ last =>
      rw [isDigitOf_iff]
      exact exists_congr fun n => and_congr_right fun _ =>
        ⟨fun same => congrArg some same.symm, fun same => (Option.some.inj same).symm⟩
  | case3 => exact absurd three (by simp)
  | case4 => exact absurd three (by simp)
  | case5 => exact absurd three (by simp)

end Base64Url

namespace Digest

/-- The encodings of hashes: of 32 octets. -/
def IsHash (encoded : String) : Prop :=
  ∃ octets : List UInt8, octets.length = 32 ∧ encoded = String.ofList (Base64Url.encode octets)

/-- The hashes are the admitted texts of 43 digits in which the last digit leaves no bit. -/
theorem isHash_iff (encoded : String) :
    IsHash encoded ↔ isEncoded encoded.toList = true ∧ encoded.length = 43 ∧
      ∃ n < 16, encoded.toList.getLast? = some (Base64Url.digit (4 * n)) := by
  rw [isEncoded_iff]
  constructor
  · rintro ⟨octets, size, rfl⟩
    have length := Base64Url.length_encode octets
    rw [size] at length
    have three : (Base64Url.encode octets).length % 4 = 3 := by rw [length]
    rw [String.toList_ofList, String.length_ofList]
    exact ⟨⟨Or.inl length, fun c member => Base64Url.isDigit_of_mem_encode member⟩, length,
      (Base64Url.fillsOctets_of_length three).1 (Base64Url.fillsOctets_encode octets)⟩
  · rintro ⟨⟨-, digits⟩, length, last⟩
    rw [← String.length_toList] at length
    have fills := (Base64Url.fillsOctets_of_length (by rw [length])).2 last
    obtain ⟨octets, written⟩ := (Base64Url.exists_encode_eq_iff _).2 ⟨digits, fills⟩
    have size := Base64Url.length_encode octets
    rw [written, length] at size
    exact ⟨octets, by omega, by rw [written, String.ofList_toList]⟩

/-- The hash of a message is one. -/
theorem isHash_ofMessage (message : ByteArray) : IsHash (ofMessage message).encoded :=
  ⟨sha256 message.data.toList, length_sha256 _, rfl⟩

/-- The texts that differ from a hash in nothing but the two bits that it leaves in its last digit. -/
def IsHashUpToSpareBits (encoded : String) : Prop :=
  ∃ front n spare, n < 16 ∧ spare < 4 ∧
    encoded.toList = front ++ [Base64Url.digit (4 * n + spare)] ∧
    IsHash (String.ofList (front ++ [Base64Url.digit (4 * n)]))

/-- Up to these bits, the hashes are the admitted texts of 43 digits. -/
theorem isHashUpToSpareBits_iff (encoded : String) :
    IsHashUpToSpareBits encoded ↔ isEncoded encoded.toList = true ∧ encoded.length = 43 := by
  constructor
  · rintro ⟨front, n, spare, bound, small, written, isHash⟩
    obtain ⟨admitted, length, -⟩ := (isHash_iff _).1 isHash
    rw [isEncoded_iff, String.toList_ofList, List.forall_mem_append] at admitted
    rw [String.length_ofList, List.length_append] at length
    have size : encoded.toList.length = 43 := by
      rw [written, List.length_append]
      exact length
    rw [isEncoded_iff, ← String.length_toList]
    refine ⟨⟨Or.inl size, ?_⟩, size⟩
    rw [written, List.forall_mem_append, List.forall_mem_singleton]
    exact ⟨admitted.2.1, Base64Url.isDigit_digit (by omega)⟩
  · rintro ⟨admitted, length⟩
    rw [isEncoded_iff] at admitted
    have nonempty : encoded.toList ≠ [] := by
      rw [← List.length_pos_iff_ne_nil, String.length_toList, length]
      decide
    have written := (List.dropLast_concat_getLast nonempty).symm
    obtain ⟨value, bound, isLast⟩ := Base64Url.exists_digit
      (admitted.2 _ (List.getLast_mem nonempty))
    -- The last digit has four bits of the hash and two beside them.
    have split : 4 * (value / 4) + value % 4 = value := Nat.div_add_mod value 4
    refine ⟨encoded.toList.dropLast, value / 4, value % 4, by omega, by omega, ?_, ?_⟩
    · rw [split, isLast]
      exact written
    · have size : (encoded.toList.dropLast ++ [Base64Url.digit (4 * (value / 4))]).length = 43 := by
        rw [List.length_append, List.length_dropLast, String.length_toList, length]
        rfl
      rw [isHash_iff, isEncoded_iff, String.toList_ofList, String.length_ofList,
        List.forall_mem_append, List.forall_mem_singleton]
      exact ⟨⟨Or.inl size, fun c member => admitted.2 c (List.mem_of_mem_dropLast member),
        Base64Url.isDigit_digit (by omega)⟩, size, value / 4, by omega, List.getLast?_concat⟩

end Digest

end DesignTokens
