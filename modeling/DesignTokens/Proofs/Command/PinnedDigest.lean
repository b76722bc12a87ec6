import DesignTokens.Proofs.Command.BuildCheck
import DesignTokens.Proofs.Digest.Hashes

/-!
# Pinned digests

The digest that `check` is told to expect is read from a text. Reading looks at the digits and at
their number and decodes nothing, so it does not see the two bits that a hash leaves in its last digit
(`overfull_digest_is_read`). Up to these bits the texts that are read are the written hashes, but for
those with one digit more; with a digest that is not of a hash, which is the digest of no stylesheet,
`check` fails (`pinned_digests_are_hashes_up_to_spare_bits`).
-/

set_option autoImplicit false

namespace DesignTokens.Digest

/-- The texts with a hash behind the name of the algorithm. -/
def IsWrittenHash (text : String) : Prop :=
  ∃ encoded, text = "sha-256:" ++ encoded ∧ IsHash encoded

/-- A written hash is read. -/
theorem IsWrittenHash.exists_parse {text : String} (written : IsWrittenHash text) :
    ∃ digest, parse text = .ok digest := by
  obtain ⟨encoded, rfl, isHash⟩ := written
  exact ⟨⟨.sha256, encoded⟩, (parse_eq_ok_iff _ _).2 ⟨rfl, ((isHash_iff _).1 isHash).1⟩⟩

/-- The texts with 44 digits of base64url behind the name of the algorithm, one more than a hash
has. -/
def HasExtraDigit (text : String) : Prop :=
  ∃ encoded, text = "sha-256:" ++ encoded ∧ encoded.length = 44 ∧
    ∀ c ∈ encoded.toList, c.isAlphanum = true ∨ c = '-' ∨ c = '_'

/-- A text that is read has the one digit more if it has 44 of them. -/
theorem hasExtraDigit_of_parse {text encoded : String}
    (read : parse text = .ok ⟨.sha256, encoded⟩) (length : encoded.length = 44) :
    HasExtraDigit text := by
  obtain ⟨rfl, admitted⟩ := (parse_eq_ok_iff _ _).1 read
  refine ⟨encoded, rfl, length, fun c member => ?_⟩
  have isDigit := ((isEncoded_iff _).1 admitted).2 c member
  simpa [Base64Url.isDigit, or_assoc] using isDigit

/-- But for the texts with one digit more, what is read are the hashes up to these bits. -/
theorem exists_parse_iff (text : String) :
    (∃ digest, parse text = .ok digest) ∧ ¬ HasExtraDigit text ↔
      ∃ encoded, text = "sha-256:" ++ encoded ∧ IsHashUpToSpareBits encoded := by
  simp only [isHashUpToSpareBits_iff]
  constructor
  · rintro ⟨⟨⟨⟨⟩, encoded⟩, read⟩, notLonger⟩
    obtain ⟨rfl, admitted⟩ := (parse_eq_ok_iff _ _).1 read
    have size := ((isEncoded_iff _).1 admitted).1
    rw [String.length_toList] at size
    exact ⟨encoded, rfl, admitted,
      size.resolve_right fun longer => notLonger (hasExtraDigit_of_parse read longer)⟩
  · rintro ⟨encoded, rfl, admitted, length⟩
    refine ⟨⟨⟨.sha256, encoded⟩, (parse_eq_ok_iff _ _).2 ⟨rfl, admitted⟩⟩, ?_⟩
    rintro ⟨other, same, longer, -⟩
    obtain rfl : encoded = other := by
      simpa [← String.toList_inj] using same
    rw [length] at longer
    exact absurd longer (by decide)

/-- No stylesheet passes with a digest that is not of a hash. -/
theorem runCheck_of_not_isHash (settings : Settings) (tree : FileTree) {digest : Digest}
    (noHash : ¬ IsHash digest.encoded) :
    (Command.runCheck settings (some digest) tree).succeeds = false := by
  rw [Bool.eq_false_iff]
  intro passes
  have isPinned := ((runCheck_succeeds_iff settings (some digest) tree).1 passes).2 digest rfl
  rw [isPinned] at noHash
  exact noHash (isHash_ofMessage _)

/-- **A digest is read up to the bits beside its hash.** Every written hash is read. But for the name of
the algorithm with 44 digits of base64url behind it, of which nothing is said here, a text is read
exactly if it is a written hash, in which the two bits that the hash leaves in its last digit may be
any. The digest of a stylesheet is of a hash, and with one that is not, `check` fails. -/
theorem pinned_digests_are_hashes_up_to_spare_bits :
    (∀ text, IsWrittenHash text → ∃ digest, parse text = .ok digest) ∧
    (∀ text, (∃ digest, parse text = .ok digest) ∧ ¬ HasExtraDigit text ↔
      ∃ encoded, text = "sha-256:" ++ encoded ∧ IsHashUpToSpareBits encoded) ∧
    (∀ css, IsHash (ofText css).encoded) ∧
    ∀ settings tree (digest : Digest), ¬ IsHash digest.encoded →
      (Command.runCheck settings (some digest) tree).succeeds = false := by
  exact ⟨fun _ written => written.exists_parse, exists_parse_iff,
    fun css => isHash_ofMessage css.toUTF8,
    fun settings tree _ noHash => runCheck_of_not_isHash settings tree noHash⟩

/-- The greatest 43 digits. The last one of them has a bit in each place that a hash leaves. -/
def overfull : String := "___________________________________________"

/-- A text is read although it is no written hash. -/
theorem overfull_digest_is_read :
    parse ("sha-256:" ++ overfull) = .ok ⟨.sha256, overfull⟩ ∧
      ¬ IsWrittenHash ("sha-256:" ++ overfull) := by
  refine ⟨(parse_eq_ok_iff _ _).2 ⟨rfl, by decide⟩, ?_⟩
  rintro ⟨encoded, same, isHash⟩
  obtain rfl : overfull = encoded := by
    simpa [← String.toList_inj] using same
  obtain ⟨-, -, last⟩ := (isHash_iff _).1 isHash
  exact absurd last (by decide)

end DesignTokens.Digest
