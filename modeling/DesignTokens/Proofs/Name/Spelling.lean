import DesignTokens.Pattern.Reader
import DesignTokens.Proofs.Name.Runs
import DesignTokens.Proofs.Pattern.Languages

/-!
# The spelling of canonical names

Canonical names are words of lower-case letters and digits, joined by single hyphens
(`isSpelled_iff`). These are the texts in which the pattern `^[a-z0-9]+(-[a-z0-9]+)*$` is found
(`isIn_spelling_iff`), and the texts that are not empty and already canonical
(`canonicalText_eq_self_iff`). So reading a name and deriving one agree
(`parse_agrees_with_derivation`).
-/

set_option autoImplicit false

open scoped Computability

namespace DesignTokens

/-! ## Words of names -/

/-- A word of a canonical name. -/
structure IsNameWord (word : List Char) : Prop where
  nonempty : word ≠ []
  spelled : ∀ c ∈ word, isWordChar c = true

/-- Within a word, further word characters make no difference. -/
theorem spelledFrom_append {run : List Char} (spelled : ∀ c ∈ run, isWordChar c = true)
    (rest : List Char) : spelledFrom true (run ++ rest) = spelledFrom true rest := by
  induction run with
  | nil => rfl
  | cons c run ih =>
      obtain ⟨isWord, spelled⟩ := List.forall_mem_cons.1 spelled
      rw [List.cons_append, spelledFrom, if_pos isWord]
      exact ih spelled

theorem spelledFrom_word_append {word : List Char} (isWord : IsNameWord word) (inWord : Bool)
    (rest : List Char) : spelledFrom inWord (word ++ rest) = spelledFrom true rest := by
  obtain ⟨nonempty, spelled⟩ := isWord
  cases word with
  | nil => exact absurd rfl nonempty
  | cons c run =>
      obtain ⟨isWord, spelled⟩ := List.forall_mem_cons.1 spelled
      rw [List.cons_append, spelledFrom, if_pos isWord]
      exact spelledFrom_append spelled rest

/-- In a name stand word characters and hyphens only. -/
theorem isWordChar_or_eq_hyphen {cs : List Char} {inWord : Bool} (h : spelledFrom inWord cs = true)
    {c : Char} (member : c ∈ cs) : isWordChar c = true ∨ c = '-' := by
  induction cs generalizing inWord with
  | nil => exact absurd member List.not_mem_nil
  | cons first rest ih =>
      rw [spelledFrom] at h
      split at h
      · next isWord =>
          rcases List.mem_cons.1 member with rfl | later
          · exact Or.inl isWord
          · exact ih h later
      · simp only [Bool.and_eq_true, beq_iff_eq] at h
        rcases List.mem_cons.1 member with rfl | later
        · exact Or.inr h.1.1
        · exact ih h.2 later

/-- A text that goes on a name ends the word it stands in, and further words follow. -/
theorem exists_words_of_spelledFrom {cs : List Char} {inWord : Bool}
    (h : spelledFrom inWord cs = true) :
    ∃ (run : List Char) (later : List (List Char)),
      (∀ c ∈ run, isWordChar c = true) ∧ (inWord = false → run ≠ []) ∧
      (∀ word ∈ later, IsNameWord word) ∧ cs = run ++ later.flatMap ('-' :: ·) := by
  induction cs generalizing inWord with
  | nil => exact ⟨[], [], by simp, by simpa [spelledFrom] using h, by simp, rfl⟩
  | cons c rest ih =>
      rw [spelledFrom] at h
      split at h
      · next isWord =>
          obtain ⟨run, later, spelled, -, words, rfl⟩ := ih h
          refine ⟨c :: run, later, ?_, fun _ => List.cons_ne_nil c run, words, rfl⟩
          exact List.forall_mem_cons.2 ⟨isWord, spelled⟩
      · -- Only a hyphen behind a word goes on, and a word has to follow it.
        simp only [Bool.and_eq_true, beq_iff_eq] at h
        obtain ⟨⟨rfl, rfl⟩, h⟩ := h
        obtain ⟨run, later, spelled, nonempty, words, rfl⟩ := ih h
        refine ⟨[], run :: later, by simp, by simp, ?_, by simp⟩
        exact List.forall_mem_cons.2 ⟨⟨nonempty rfl, spelled⟩, words⟩

/-- A canonical spelling is one word or more, joined by single hyphens. -/
theorem isSpelled_iff (cs : List Char) :
    isSpelled cs = true ↔ ∃ first later, (∀ word ∈ first :: later, IsNameWord word) ∧
      cs = List.intercalate ['-'] (first :: later) := by
  constructor
  · intro h
    obtain ⟨run, later, spelled, nonempty, words, split⟩ := exists_words_of_spelledFrom h
    refine ⟨run, later, ?_, by rw [intercalate_cons_eq, split]⟩
    exact List.forall_mem_cons.2 ⟨⟨nonempty rfl, spelled⟩, words⟩
  · rintro ⟨first, later, words, rfl⟩
    obtain ⟨isWord, words⟩ := List.forall_mem_cons.1 words
    have further : ∀ rest : List (List Char), (∀ word ∈ rest, IsNameWord word) →
        spelledFrom true (rest.flatMap ('-' :: ·)) = true := by
      intro rest restWords
      induction rest with
      | nil => rfl
      | cons word rest ih =>
          obtain ⟨isNext, restWords⟩ := List.forall_mem_cons.1 restWords
          rw [List.flatMap_cons, List.cons_append, spelledFrom, if_neg (by simp [isWordChar_hyphen]),
            spelledFrom_word_append isNext, ih restWords]
          rfl
    rw [intercalate_cons_eq, isSpelled, spelledFrom_word_append isWord]
    exact further later words

/-! ## The pattern of canonical names -/

/-- The characters of the words of a name, as a pattern has them. -/
def nameWordSet : CharSet := .union (.union .none (.ranges [('a', 'z')])) (.ranges [('0', '9')])

/-- The pattern of a word of a name. -/
def nameWordPattern : Pattern := .repeated (.one nameWordSet) 1 none

/-- The pattern of canonical names, `^[a-z0-9]+(-[a-z0-9]+)*$`. -/
def spellingPattern : Pattern :=
  .sequence
    (.sequence (.sequence (.assertion .textStart) nameWordPattern)
      (.repeated (.sequence (.one (.char '-')) nameWordPattern) 0 none))
    (.assertion .textEnd)

/-- The pattern as it is written. -/
theorem parse?_spellingPattern :
    Pattern.parse? "^[a-z0-9]+(-[a-z0-9]+)*$" = some spellingPattern := by decide

theorem contains_nameWordSet (c : Char) : nameWordSet.contains c = isWordChar c := by
  have lower : c.isLower = (decide ('a' ≤ c) && decide (c ≤ 'z')) := rfl
  have digit : c.isDigit = (decide ('0' ≤ c) && decide (c ≤ '9')) := rfl
  simp [nameWordSet, CharSet.contains, CharSet.none, isWordChar, lower, digit]

/-- The language of a word. -/
def nameWords : Language Char := nameWordSet.language ^ 1 * nameWordSet.language∗

theorem mem_nameWords (word : List Char) : word ∈ nameWords ↔ IsNameWord word := by
  rw [nameWords, CharSet.mem_run_language]
  simp only [contains_nameWordSet]
  constructor
  · rintro ⟨nonempty, spelled⟩
    exact ⟨nonempty, spelled⟩
  · rintro ⟨nonempty, spelled⟩
    exact ⟨nonempty, spelled⟩

/-- Words with a hyphen before each. -/
theorem mem_further_nameWords (text : List Char) :
    text ∈ ((CharSet.char '-').language * nameWords)∗ ↔
      ∃ later : List (List Char),
        (∀ word ∈ later, IsNameWord word) ∧ text = later.flatMap ('-' :: ·) := by
  have part (piece : List Char) : piece ∈ (CharSet.char '-').language * nameWords ↔
      ∃ word, IsNameWord word ∧ piece = '-' :: word := by
    rw [CharSet.mem_char_mul]
    simp only [mem_nameWords]
  rw [Language.mem_kstar]
  constructor
  · rintro ⟨pieces, rfl, member⟩
    induction pieces with
    | nil => exact ⟨[], by simp, rfl⟩
    | cons piece pieces ih =>
        obtain ⟨isPart, areParts⟩ := List.forall_mem_cons.1 member
        obtain ⟨later, words, split⟩ := ih areParts
        obtain ⟨word, isWord, rfl⟩ := (part piece).1 isPart
        refine ⟨word :: later, List.forall_mem_cons.2 ⟨isWord, words⟩, ?_⟩
        rw [List.flatten_cons, split, List.flatMap_cons]
  · rintro ⟨later, words, rfl⟩
    refine ⟨later.map ('-' :: ·), List.flatMap_def, ?_⟩
    intro piece member
    obtain ⟨word, isLater, rfl⟩ := List.mem_map.1 member
    exact (part _).2 ⟨word, words word isLater, rfl⟩

/-- The pattern is found in the canonical spellings and in no other text. -/
theorem isIn_spelling_iff (text : String) :
    spellingPattern.isIn text = true ↔ isSpelled text.toList = true := by
  have word : nameWordPattern.Takes nameWords :=
    Pattern.takes_repeated (Pattern.takes_one nameWordSet) 1
  have further := Pattern.takes_repeated
    (Pattern.takes_sequence (Pattern.takes_one (CharSet.char '-')) word) 0
  rw [pow_zero, one_mul] at further
  rw [spellingPattern, Pattern.isIn_between_ends_iff word further, isSpelled_iff, Language.mem_mul]
  simp only [mem_nameWords, mem_further_nameWords]
  constructor
  · rintro ⟨first, isWord, _, ⟨later, words, rfl⟩, split⟩
    refine ⟨first, later, List.forall_mem_cons.2 ⟨isWord, words⟩, ?_⟩
    rw [intercalate_cons_eq, split]
  · rintro ⟨first, later, words, split⟩
    obtain ⟨isWord, words⟩ := List.forall_mem_cons.1 words
    refine ⟨first, isWord, _, ⟨later, words, rfl⟩, ?_⟩
    rw [split, intercalate_cons_eq]

/-! ## Canonical texts -/

/-- The texts that a canonical text leaves alone. -/
theorem canonicalChars_eq_self_iff (cs : List Char) :
    canonicalChars cs = cs ↔ cs = [] ∨ isSpelled cs = true := by
  constructor
  · intro same
    rcases isSpelled_kebabChars _ (dot_notMem_map_pathSeparator cs) with empty | spelled
    · exact Or.inl (same.symm.trans empty)
    · exact Or.inr (same ▸ spelled)
  · rintro (rfl | spelled)
    · rfl
    · obtain ⟨first, later, words_spelled, rfl⟩ := (isSpelled_iff cs).1 spelled
      have own : ∀ word ∈ first :: later, words Char.isAlphanum word = [word] := by
        intro word member
        obtain ⟨nonempty, spelled⟩ := words_spelled word member
        exact words_of_run nonempty fun c hc => isAlphanum_of_isWordChar (spelled c hc)
      have low : ∀ word ∈ first :: later, lowered word = word := by
        intro word member
        calc lowered word = word.map id :=
              List.map_congr_left fun c hc =>
                toLower_of_isWordChar ((words_spelled word member).spelled c hc)
          _ = word := List.map_id word
      rw [canonicalChars_eq, words_intercalate isAlphanum_hyphen, List.flatMap_congr own,
        List.flatMap_singleton', hyphenated, List.map_congr_left low, List.map_id']

theorem canonicalText_eq_self_iff (text : String) :
    canonicalText text = text ↔ text = "" ∨ isSpelled text.toList = true := by
  rw [← String.toList_eq_nil_iff, ← canonicalChars_eq_self_iff, canonicalText_eq, ← String.toList_inj,
    String.toList_ofList]

namespace CanonicalName

theorem text_ne_empty (name : CanonicalName) : name.text ≠ "" := by
  intro empty
  have spelled := name.spelled
  rw [empty] at spelled
  exact absurd spelled (by decide)

/-- What has been derived is derived from itself. -/
theorem derive?_text_self (name : CanonicalName) : derive? name.text = some name := by
  have same := (canonicalText_eq_self_iff name.text).2 (Or.inr name.spelled)
  cases derived : derive? name.text with
  | none =>
      rw [derive?_eq_none_iff, same] at derived
      exact absurd derived name.text_ne_empty
  | some other => rw [ext_text ((derive?_text derived).trans same)]

theorem parse_eq_ok_iff (text : String) (name : CanonicalName) :
    parse text = .ok name ↔ name.text = text := by
  constructor
  · intro read
    unfold parse at read
    split at read
    · exact absurd read (by simp)
    · split at read
      · exact (congrArg CanonicalName.text (Except.ok.inj read)).symm
      · exact absurd read (by simp)
  · rintro rfl
    exact parse_text name

theorem exists_parse_eq_ok_iff (text : String) :
    (∃ name, parse text = .ok name) ↔ isSpelled text.toList = true := by
  simp only [parse_eq_ok_iff]
  constructor
  · rintro ⟨name, rfl⟩
    exact name.spelled
  · intro spelled
    exact ⟨⟨text, spelled⟩, rfl⟩

theorem parse_eq_error_iff (text : String) (e : SpellingError) :
    parse text = .error e ↔ text = "" ∧ e = .empty field ∨
      (text ≠ "" ∧ canonicalText text ≠ text) ∧ e = .notAllowed field text := by
  have refusal {own : SpellingError} :
      (Except.error own : Except SpellingError CanonicalName) = .error e ↔ e = own := by
    constructor
    · intro same
      exact (Except.error.inj same).symm
    · rintro rfl
      rfl
  rw [Ne, Ne, canonicalText_eq_self_iff]
  unfold parse
  split
  · next empty => simp [empty, refusal]
  · next nonempty =>
      split
      · next spelled => simp [nonempty, spelled]
      · next other => simp [nonempty, other, refusal]

/-- **Reading and deriving agree.** A text is read as a name, with its spelling kept, exactly if that
name is derived from it and has its spelling. Otherwise the text is refused: as empty, if it is, and
as not allowed, with its spelling, if the canonical text is another one. The names that can be read are
the names that can be derived, and their texts are those in which the pattern of names is found. -/
theorem parse_agrees_with_derivation (text : String) :
    (∀ name, parse text = .ok name ↔ derive? text = some name ∧ name.text = text) ∧
      (∀ e, parse text = .error e ↔ text = "" ∧ e = .empty field ∨
        (text ≠ "" ∧ canonicalText text ≠ text) ∧ e = .notAllowed field text) ∧
      (∀ name, parse text = .ok name ↔ name.text = text ∧ ∃ raw, derive? raw = some name) ∧
      ((∃ name, parse text = .ok name) ↔
        ∃ pattern, Pattern.parse? "^[a-z0-9]+(-[a-z0-9]+)*$" = some pattern ∧
          pattern.isIn text = true) := by
  refine ⟨?_, parse_eq_error_iff text, ?_, ?_⟩
  · intro name
    rw [parse_eq_ok_iff]
    constructor
    · rintro rfl
      exact ⟨derive?_text_self name, rfl⟩
    · exact And.right
  · intro name
    rw [parse_eq_ok_iff]
    constructor
    · intro same
      exact ⟨same, name.text, derive?_text_self name⟩
    · exact And.left
  · rw [parse?_spellingPattern, exists_parse_eq_ok_iff, ← isIn_spelling_iff]
    simp only [Option.some.injEq, exists_eq_left']

end CanonicalName

end DesignTokens
