import DesignTokens.Digest
import DesignTokens.Pattern.Reader
import DesignTokens.Proofs.Pattern.Languages

/-!
# Reading digests

What is read as a digest: the name of the algorithm, a colon, and 43 or 44 digits of base64url
(`Digest.parse_eq_ok_iff`). So a digest that has been read is written as it was, and one that is
written is read back if its hash is admitted. The hash of a message is: its 32 octets are encoded
by 43 digits (`Digest.isEncoded_ofMessage`). What is admitted are the texts in which the pattern
`^[A-Za-z0-9_-]{43,44}$` is found (`Digest.isIn_encoded_iff`).
-/

set_option autoImplicit false

open scoped Computability

namespace DesignTokens

namespace Base64Url

/-! ## Encoded octets -/

/-- The character of every value below 64 is a digit. -/
theorem isDigit_digit {n : Nat} (h : n < 64) : isDigit (digit n) = true := by
  have each : ∀ n < 64, isDigit (digit n) = true := by decide
  exact each n h

theorem isDigit_of_mem_encode {octets : List UInt8} {c : Char} (member : c ∈ encode octets) :
    isDigit c = true := by
  fun_induction encode octets with
  | case1 a b c' rest n ih =>
      have bound : n < 64 * 262144 := by
        have := a.toNat_lt
        have := b.toNat_lt
        have := c'.toNat_lt
        omega
      simp only [List.mem_cons] at member
      rcases member with rfl | rfl | rfl | rfl | later
      · exact isDigit_digit (by omega)
      · exact isDigit_digit (by omega)
      · exact isDigit_digit (by omega)
      · exact isDigit_digit (by omega)
      · exact ih later
  | case2 a b n =>
      have bound : n < 64 * 1024 := by
        have := a.toNat_lt
        have := b.toNat_lt
        omega
      simp only [List.mem_cons, List.not_mem_nil, or_false] at member
      rcases member with rfl | rfl | rfl
      · exact isDigit_digit (by omega)
      · exact isDigit_digit (by omega)
      · exact isDigit_digit (by omega)
  | case3 a =>
      have bound := a.toNat_lt
      simp only [List.mem_cons, List.not_mem_nil, or_false] at member
      rcases member with rfl | rfl
      · exact isDigit_digit (by omega)
      · exact isDigit_digit (by omega)
  | case4 => exact absurd member List.not_mem_nil

/-- Three octets take four digits, and the octets at the end as many as they need. -/
theorem length_encode (octets : List UInt8) :
    (encode octets).length = (4 * octets.length + 2) / 3 := by
  fun_induction encode octets with
  | case1 a b c rest n ih =>
      simp only [List.length_cons, ih]
      omega
  | case2 => simp
  | case3 => simp
  | case4 => rfl

end Base64Url

namespace Digest

/-! ## Admitted hashes -/

theorem isEncoded_iff (cs : List Char) :
    isEncoded cs = true ↔
      (cs.length = 43 ∨ cs.length = 44) ∧ ∀ c ∈ cs, Base64Url.isDigit c = true := by
  simp [isEncoded]

/-- The hash of a message is admitted. -/
theorem isEncoded_ofMessage (message : ByteArray) :
    isEncoded (ofMessage message).encoded.toList = true := by
  rw [isEncoded_iff, ofMessage, String.toList_ofList, Base64Url.length_encode, length_sha256]
  exact ⟨Or.inl rfl, fun c member => Base64Url.isDigit_of_mem_encode member⟩

theorem ofEncoded_eq_ok_iff (algorithm : HashAlgorithm) (encoded : String) (digest : Digest) :
    ofEncoded algorithm encoded = .ok digest ↔
      isEncoded encoded.toList = true ∧ digest = ⟨algorithm, encoded⟩ := by
  rw [ofEncoded]
  split
  · next admitted => simp [admitted, eq_comm]
  · next refused => simp [refused]

/-! ## The pattern of admitted hashes -/

/-- The digits of base64url, as a pattern has them. -/
def encodedSet : CharSet :=
  .union (.union (.union (.union (.union .none (.ranges [('A', 'Z')])) (.ranges [('a', 'z')]))
    (.ranges [('0', '9')])) (.char '_')) (.char '-')

/-- The pattern of admitted hashes, `^[A-Za-z0-9_-]{43,44}$`. -/
def encodedPattern : Pattern :=
  .sequence (.sequence (.assertion .textStart) (.repeated (.one encodedSet) 43 (some 44)))
    (.assertion .textEnd)

/-- The pattern as it is written. -/
theorem parse?_encodedPattern :
    Pattern.parse? "^[A-Za-z0-9_-]\x7b43,44\x7d$" = some encodedPattern := by
  decide +kernel

theorem contains_encodedSet (c : Char) : encodedSet.contains c = Base64Url.isDigit c := by
  have upper : c.isUpper = (decide ('A' ≤ c) && decide (c ≤ 'Z')) := by
    rw [Bool.eq_iff_iff, Bool.and_eq_true, decide_eq_true_eq, decide_eq_true_eq]
    exact decide_eq_true_iff
  have lower : c.isLower = (decide ('a' ≤ c) && decide (c ≤ 'z')) := rfl
  have digit : c.isDigit = (decide ('0' ≤ c) && decide (c ≤ '9')) := rfl
  have alphanum : c.isAlphanum = (c.isUpper || c.isLower || c.isDigit) := rfl
  have underscore : (CharSet.char '_').contains c = (c == '_') := by
    rw [CharSet.contains_char, Bool.beq_comm]
  have hyphen : (CharSet.char '-').contains c = (c == '-') := by
    rw [CharSet.contains_char, Bool.beq_comm]
  simp only [encodedSet, CharSet.contains, CharSet.none, Base64Url.isDigit, alphanum, upper, lower,
    digit, underscore, hyphen, List.any_cons, List.any_nil, Bool.or_false, Bool.false_or,
    Bool.or_assoc]
  rw [Bool.or_comm (c == '_')]

/-- The pattern is found in the admitted hashes and in no other text. -/
theorem isIn_encoded_iff (text : String) :
    encodedPattern.isIn text = true ↔ isEncoded text.toList = true := by
  have counted := Pattern.takes_counted (Pattern.takes_one encodedSet) 43 44
  have one_further : encodedSet.language ^ 43 * (1 + encodedSet.language) ^ (44 - 43) =
      encodedSet.language ^ 43 + encodedSet.language ^ 44 := by
    rw [show 44 - 43 = 1 from rfl, pow_one, mul_add, mul_one, ← pow_succ]
  rw [one_further] at counted
  rw [encodedPattern, Pattern.isIn_to_end_iff
      (Pattern.takesAtStart_sequence Pattern.takesAtStart_textStart counted), isEncoded_iff, one_mul,
    Language.mem_add, CharSet.mem_pow_language, CharSet.mem_pow_language, ← or_and_right]
  simp only [contains_encodedSet]

/-! ## Written digests -/

theorem ofName?_eq_some_iff (name : String) (algorithm : HashAlgorithm) :
    HashAlgorithm.ofName? name = some algorithm ↔ name = algorithm.name := by
  cases algorithm with
  | sha256 => simp [HashAlgorithm.ofName?]

/-- The name of an algorithm ends where the first colon stands. -/
theorem notMem_name (algorithm : HashAlgorithm) : ':' ∉ algorithm.name.toList := by
  cases algorithm with
  | sha256 => decide

/-- A digest is read from its written form if its hash is admitted, and from nothing else. -/
theorem parse_eq_ok_iff (text : String) (digest : Digest) :
    parse text = .ok digest ↔ digest.render = text ∧ isEncoded digest.encoded.toList = true := by
  constructor
  · intro read
    rw [parse] at read
    split at read
    · next name encoded cut =>
        have whole : text.toList = name ++ ':' :: encoded := by
          rw [List.span_eq_takeWhile_dropWhile, Prod.mk.injEq] at cut
          rw [← cut.1, ← cut.2, List.takeWhile_append_dropWhile]
        split at read
        · next algorithm named =>
            obtain ⟨admitted, rfl⟩ := (ofEncoded_eq_ok_iff _ _ _).1 read
            refine ⟨?_, admitted⟩
            apply String.toList_injective
            rw [whole, render, ← (ofName?_eq_some_iff _ _).1 named]
            simp
        · exact absurd read (by simp)
    · exact absurd read (by simp)
  · rintro ⟨rfl, admitted⟩
    obtain ⟨algorithm, encoded⟩ := digest
    have cut : (render ⟨algorithm, encoded⟩).toList.span (· != ':') =
        (algorithm.name.toList, ':' :: encoded.toList) := by
      have colonFree : ∀ c ∈ algorithm.name.toList, (c != ':') = true := by
        intro c member
        rw [bne_iff_ne]
        rintro rfl
        exact notMem_name algorithm member
      have written : (render ⟨algorithm, encoded⟩).toList =
          algorithm.name.toList ++ ':' :: encoded.toList := by simp [render]
      rw [List.span_eq_takeWhile_dropWhile, written, List.takeWhile_append_of_pos colonFree,
        List.dropWhile_append_of_pos colonFree, List.takeWhile_cons_of_neg (by simp),
        List.dropWhile_cons_of_neg (by simp), List.append_nil]
    have named := (ofName?_eq_some_iff algorithm.name algorithm).2 rfl
    simp only [parse, cut, String.ofList_toList, named]
    exact (ofEncoded_eq_ok_iff _ _ _).2 ⟨admitted, rfl⟩

/-- **Digests are read as they are written.** The digest of a message passes validation, which is by the
pattern of encoded hashes, and is read back from its written form. A text is read as a digest exactly
if it is the written form of the digest and the hash is admitted; so a digest that has been read is
written as the text was. -/
theorem digests_are_read_as_written :
    (∀ message, ofEncoded .sha256 (ofMessage message).encoded = .ok (ofMessage message) ∧
      parse (ofMessage message).render = .ok (ofMessage message)) ∧
    (∀ text digest, parse text = .ok digest ↔
      digest.render = text ∧ ofEncoded digest.algorithm digest.encoded = .ok digest) ∧
    ∀ algorithm encoded, ofEncoded algorithm encoded = .ok ⟨algorithm, encoded⟩ ↔
      ∃ pattern, Pattern.parse? "^[A-Za-z0-9_-]\x7b43,44\x7d$" = some pattern ∧
        pattern.isIn encoded = true := by
  refine ⟨?_, ?_, ?_⟩
  · intro message
    have admitted := isEncoded_ofMessage message
    exact ⟨(ofEncoded_eq_ok_iff _ _ _).2 ⟨admitted, rfl⟩,
      (parse_eq_ok_iff _ _).2 ⟨rfl, admitted⟩⟩
  · intro text digest
    rw [parse_eq_ok_iff, ofEncoded_eq_ok_iff, and_iff_left (a := isEncoded _ = true) rfl]
  · intro algorithm encoded
    rw [ofEncoded_eq_ok_iff, and_iff_left rfl, parse?_encodedPattern, ← isIn_encoded_iff]
    simp only [Option.some.injEq, exists_eq_left']

end Digest

end DesignTokens
