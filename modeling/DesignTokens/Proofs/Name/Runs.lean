import DesignTokens.Proofs.Name.Words
import Mathlib.Data.List.Basic

/-!
# Kebab case and canonical texts by their runs

What kebab case and canonical texts make of a text, said of the text alone: its maximal runs of
characters of a kind, in lower case, with single hyphens between them. Kebab case keeps letters,
digits and dots, a canonical text keeps letters and digits (`kebab_and_canonicalText_join_runs`).
Every text has exactly one list of maximal runs, its words (`maximalRuns_iff`). That both functions
change nothing the second time, and that their hyphens stand singly and inside, follows from this
form for any kind of characters that is closed under lower case and leaves out the hyphen
(`joinsRuns_of_eq`).
-/

set_option autoImplicit false

namespace DesignTokens

/-! ## Maximal runs -/

/-- The maximal runs of characters of a kind in a text, in order: between them, before the first and
after the last stand characters of other kinds only, and no run goes on behind its end. -/
inductive MaximalRuns (kind : Char → Bool) : List Char → List (List Char) → Prop where
  | gap {others : List Char} (other : ∀ c ∈ others, kind c = false) : MaximalRuns kind others []
  | run {others run rest : List Char} {later : List (List Char)}
      (other : ∀ c ∈ others, kind c = false) (nonempty : run ≠ [])
      (ofKind : ∀ c ∈ run, kind c = true) (ends : ∀ c ∈ rest.head?, kind c = false)
      (behind : MaximalRuns kind rest later) : MaximalRuns kind (others ++ run ++ rest) (run :: later)

section MaximalRuns

variable {kind : Char → Bool}

/-- Characters of other kinds before a text make no word. -/
theorem words_append_of_others {others : List Char} (other : ∀ c ∈ others, kind c = false)
    (rest : List Char) : words kind (others ++ rest) = words kind rest := by
  induction others with
  | nil => rfl
  | cons c others ih =>
      rw [List.cons_append, words_cons_of_gap (other c List.mem_cons_self)]
      exact ih fun d hd => other d (List.mem_cons_of_mem c hd)

/-- A run alone is a word. -/
theorem words_of_run {run : List Char} (nonempty : run ≠ []) (ofKind : ∀ c ∈ run, kind c = true) :
    words kind run = [run] := by
  rw [words, List.splitOnP_eq_singleton fun c hc => by simp [ofKind c hc]]
  simp [nonempty]

/-- What no character of the kind follows, has words of its own. -/
theorem words_append_of_ends {rest : List Char} (ends : ∀ c ∈ rest.head?, kind c = false)
    (cs : List Char) : words kind (cs ++ rest) = words kind cs ++ words kind rest := by
  cases rest with
  | nil => rw [List.append_nil, words_nil, List.append_nil]
  | cons c rest =>
      have gap : kind c = false := ends c rfl
      rw [words_append_cons gap, words_cons_of_gap gap]

/-- A run that ends where it stands is the first word. -/
theorem words_run_append {run rest : List Char} (nonempty : run ≠ [])
    (ofKind : ∀ c ∈ run, kind c = true) (ends : ∀ c ∈ rest.head?, kind c = false) :
    words kind (run ++ rest) = run :: words kind rest := by
  rw [words_append_of_ends ends, words_of_run nonempty ofKind, List.singleton_append]

theorem MaximalRuns.eq_words {cs : List Char} {runs : List (List Char)}
    (h : MaximalRuns kind cs runs) : runs = words kind cs := by
  induction h with
  | gap other =>
      have none_left := words_append_of_others other []
      rw [List.append_nil, words_nil] at none_left
      exact none_left.symm
  | run other nonempty ofKind ends behind ih =>
      rw [List.append_assoc, words_append_of_others other, words_run_append nonempty ofKind ends, ← ih]

/-- Every text has maximal runs: what stands before the first of them, that run, and those of what is
left. -/
theorem exists_maximalRuns (kind : Char → Bool) (cs : List Char) :
    ∃ runs, MaximalRuns kind cs runs := by
  induction size : cs.length using Nat.strongRecOn generalizing cs with
  | _ n ih =>
      -- What is taken first is of other kinds; what is left then starts with a run, if anything.
      have others : ∀ c ∈ cs.takeWhile fun c => !kind c, kind c = false := by
        intro c hc
        simpa using List.all_eq_true.1 List.all_takeWhile c hc
      have split := List.takeWhile_append_dropWhile (p := fun c => !kind c) (l := cs)
      cases left : cs.dropWhile fun c => !kind c with
      | nil =>
          rw [left, List.append_nil] at split
          exact ⟨[], split ▸ MaximalRuns.gap others⟩
      | cons first rest =>
          have isFirst : kind first = true := by
            have head := List.head?_dropWhile_not (fun c => !kind c) cs
            rw [left] at head
            simpa using head
          have ofKind : ∀ c ∈ first :: rest.takeWhile kind, kind c = true :=
            List.forall_mem_cons.2 ⟨isFirst, List.all_eq_true.1 List.all_takeWhile⟩
          have ends : ∀ c ∈ (rest.dropWhile kind).head?, kind c = false := by
            intro c hc
            have head := List.head?_dropWhile_not kind rest
            rw [hc] at head
            exact head
          have shorter : (rest.dropWhile kind).length < n := by
            have taken := congrArg List.length split
            have dropped := (List.dropWhile_sublist (p := kind) (l := rest)).length_le
            rw [List.length_append, left, List.length_cons] at taken
            omega
          obtain ⟨later, behind⟩ := ih _ shorter (rest.dropWhile kind) rfl
          -- The three parts and what is behind them make up the text again.
          refine ⟨(first :: rest.takeWhile kind) :: later, ?_⟩
          have whole := MaximalRuns.run others (List.cons_ne_nil _ _) ofKind ends behind
          rw [List.append_assoc, List.cons_append, List.takeWhile_append_dropWhile, ← left,
            List.takeWhile_append_dropWhile] at whole
          exact whole

/-- The maximal runs of a text are its words. -/
theorem maximalRuns_iff (cs : List Char) (runs : List (List Char)) :
    MaximalRuns kind cs runs ↔ runs = words kind cs := by
  constructor
  · exact MaximalRuns.eq_words
  · rintro rfl
    obtain ⟨runs, isRuns⟩ := exists_maximalRuns kind cs
    exact isRuns.eq_words ▸ isRuns

theorem words_eq_nil_iff (cs : List Char) : words kind cs = [] ↔ ∀ c ∈ cs, kind c = false := by
  constructor
  · intro empty
    have isRuns := (maximalRuns_iff cs []).2 empty.symm
    cases isRuns with
    | gap other => exact other
  · intro other
    exact (MaximalRuns.gap other).eq_words.symm

theorem ne_nil_of_mem_words {cs word : List Char} (h : word ∈ words kind cs) : word ≠ [] := by
  have nonempty := (List.mem_filter.1 h).2
  simpa using nonempty

end MaximalRuns

/-! ## Tidy hyphens -/

/-- Whether hyphens stand singly and inside a text: none at its start or end, and no two together. -/
structure TidyHyphens (cs : List Char) : Prop where
  start : cs.head? ≠ some '-'
  stop : cs.getLast? ≠ some '-'
  single : ¬ ['-', '-'] <:+: cs

/-- Hyphens are tidy where they leave no empty piece. -/
theorem tidyHyphens_of_pieces {cs : List Char} (filled : [] ∉ cs.splitOn '-') : TidyHyphens cs := by
  have hyphen : ('-' == '-') = true := rfl
  refine ⟨?_, ?_, ?_⟩
  · intro first
    obtain ⟨rest, rfl⟩ := List.head?_eq_some_iff.1 first
    apply filled
    rw [List.splitOn, List.splitOnP_cons_eq_if_modifyHead, if_pos hyphen]
    exact List.mem_cons_self
  · intro last
    obtain ⟨front, rfl⟩ := List.getLast?_eq_some_iff.1 last
    apply filled
    rw [List.splitOn, List.splitOnP_append_cons (p := fun c => c == '-') front [] hyphen]
    exact List.mem_append_right _ List.mem_cons_self
  · rintro ⟨before, after, rfl⟩
    apply filled
    rw [List.append_assoc, List.splitOn, List.cons_append,
      List.splitOnP_append_cons (p := fun c => c == '-') _ _ hyphen, List.cons_append,
      List.splitOnP_cons_eq_if_modifyHead, if_pos hyphen]
    exact List.mem_append_right _ List.mem_cons_self

/-! ## Joined runs -/

theorem toLower_of_not_isUpper {c : Char} (h : ¬c.isUpper = true) : c.toLower = c := by
  have isUpper : c.isUpper = decide ('A'.val ≤ c.val ∧ c.val ≤ 'Z'.val) := rfl
  unfold Char.toLower
  grind

theorem isAlphanum_of_isUpper {c : Char} (h : c.isUpper = true) : c.isAlphanum = true := by
  show (c.isUpper || c.isLower || c.isDigit) = true
  rw [h, Bool.true_or, Bool.true_or]

theorem toLower_toLower (c : Char) : c.toLower.toLower = c.toLower := by
  by_cases upper : c.isUpper
  · exact toLower_of_isWordChar (isWordChar_toLower (isAlphanum_of_isUpper upper))
  · have same := toLower_of_not_isUpper upper
    rw [same, same]

/-- A function on texts joins the maximal runs of characters of a kind, in lower case, by single
hyphens. -/
structure JoinsRuns (kind : Char → Bool) (rewrite : String → String) : Prop where
  /-- A text has one list of maximal runs, and these are joined. -/
  joined : ∀ text, ∃ runs, (∀ others, MaximalRuns kind text.toList others ↔ others = runs) ∧
    rewrite text = String.ofList (List.intercalate ['-'] (runs.map (List.map Char.toLower)))
  /-- A text without characters of the kind leaves nothing. -/
  empty_iff : ∀ text, rewrite text = "" ↔ ∀ c ∈ text.toList, kind c = false
  /-- What is joined stays as it is. -/
  idempotent : ∀ text, rewrite (rewrite text) = rewrite text
  tidy : ∀ text, TidyHyphens (rewrite text).toList

section Joined

variable {kind : Char → Bool} (noHyphen : kind '-' = false)
  (closed : ∀ c, kind c = true → kind c.toLower = true)

include noHyphen closed

omit noHyphen in
theorem mem_lowered_words {cs word : List Char} (h : word ∈ (words kind cs).map lowered) :
    word ≠ [] ∧ ∀ c ∈ word, kind c = true := by
  obtain ⟨run, isWord, rfl⟩ := List.mem_map.1 h
  constructor
  · exact mt List.map_eq_nil_iff.1 (ne_nil_of_mem_words isWord)
  · intro c hc
    obtain ⟨d, member, rfl⟩ := List.mem_map.1 hc
    exact closed d (keep_of_mem_words isWord d member)

/-- The words of joined words are these words, in lower case. -/
theorem words_hyphenated_words (cs : List Char) :
    words kind (hyphenated (words kind cs)) = (words kind cs).map lowered := by
  rw [hyphenated, words_intercalate noHyphen]
  have alone : ∀ word ∈ (words kind cs).map lowered, words kind word = [word] := by
    intro word member
    obtain ⟨nonempty, ofKind⟩ := mem_lowered_words closed member
    exact words_of_run nonempty ofKind
  rw [List.flatMap_congr alone]
  exact List.flatMap_singleton' _

theorem hyphenated_words_idempotent (cs : List Char) :
    hyphenated (words kind (hyphenated (words kind cs))) = hyphenated (words kind cs) := by
  have again : lowered ∘ lowered = lowered := by
    funext word
    rw [Function.comp_apply, lowered, lowered, List.map_map]
    exact List.map_congr_left fun c _ => toLower_toLower c
  rw [words_hyphenated_words noHyphen closed, hyphenated, List.map_map, again, hyphenated]

theorem tidyHyphens_hyphenated_words (cs : List Char) :
    TidyHyphens (hyphenated (words kind cs)) := by
  cases some_word : words kind cs with
  | nil => exact ⟨by simp [hyphenated], by simp [hyphenated], by simp [hyphenated]⟩
  | cons first later =>
      apply tidyHyphens_of_pieces
      rw [← some_word, hyphenated, List.splitOn_intercalate]
      · intro empty
        exact (mem_lowered_words closed empty).1 rfl
      · intro word member hyphen
        have kept := (mem_lowered_words closed member).2 '-' hyphen
        rw [noHyphen] at kept
        exact Bool.false_ne_true kept
      · rw [some_word]
        exact List.cons_ne_nil _ _

theorem hyphenated_words_eq_nil_iff (cs : List Char) :
    hyphenated (words kind cs) = [] ↔ ∀ c ∈ cs, kind c = false := by
  rw [← words_eq_nil_iff]
  constructor
  · intro empty
    have none_left := words_hyphenated_words noHyphen closed cs
    rw [empty, words_nil] at none_left
    exact List.map_eq_nil_iff.1 none_left.symm
  · intro none_left
    rw [none_left]
    rfl

theorem joinsRuns_of_eq {rewrite : String → String}
    (form : ∀ text, rewrite text = String.ofList (hyphenated (words kind text.toList))) :
    JoinsRuns kind rewrite := by
  refine ⟨?_, ?_, ?_, ?_⟩
  · intro text
    exact ⟨words kind text.toList, maximalRuns_iff text.toList, form text⟩
  · intro text
    rw [form, ← hyphenated_words_eq_nil_iff noHyphen closed, ← String.toList_eq_nil_iff,
      String.toList_ofList]
  · intro text
    rw [form (rewrite text), form text, String.toList_ofList,
      hyphenated_words_idempotent noHyphen closed]
  · intro text
    rw [form, String.toList_ofList]
    exact tidyHyphens_hyphenated_words noHyphen closed text.toList

end Joined

/-! ## The two kinds -/

theorem isAlphanum_toLower {c : Char} (h : c.isAlphanum = true) : c.toLower.isAlphanum = true :=
  isAlphanum_of_isWordChar (isWordChar_toLower h)

/-- Lower case makes no letter or digit of another character. -/
theorem isAlphanum_toLower_eq (c : Char) : c.toLower.isAlphanum = c.isAlphanum := by
  by_cases upper : c.isUpper
  · have alphanum := isAlphanum_of_isUpper upper
    rw [isAlphanum_toLower alphanum, alphanum]
  · rw [toLower_of_not_isUpper upper]

theorem isKept_toLower {c : Char} (h : isKept c = true) : isKept c.toLower = true := by
  by_cases alphanum : c.isAlphanum
  · simp [isKept, isAlphanum_toLower alphanum]
  · have dot : c = '.' := by simpa [isKept, alphanum] using h
    subst dot
    decide

/-- **Kebab case and canonical texts join maximal runs**: kebab case those of ASCII letters, digits
and dots, a canonical text those of ASCII letters and digits. -/
theorem kebab_and_canonicalText_join_runs :
    JoinsRuns (fun c => c.isAlphanum || c == '.') kebab ∧
      JoinsRuns Char.isAlphanum canonicalText := by
  constructor
  · show JoinsRuns isKept kebab
    apply joinsRuns_of_eq
    · decide
    · intro c
      exact isKept_toLower
    · intro text
      rw [kebab, kebabChars_eq]
  · apply joinsRuns_of_eq
    · exact isAlphanum_hyphen
    · intro c
      exact isAlphanum_toLower
    · intro text
      rw [canonicalText_eq, canonicalChars_eq]

end DesignTokens
