import DesignTokens.Name

/-!
# The words of a name

The words of a text are its maximal runs of characters of a kind. Kebab case joins the words of kept
characters by hyphens, in lower case (`kebabChars_eq`), and a canonical text joins the words of
letters and digits (`canonicalChars_eq`). Collecting a path by its keys leaves the canonical text
alone: it is made of the words of the keys, in order (`canonicalText_joinPath`), and so is the
canonical text of the keys written with dots between them (`canonicalText_intercalate`).
-/

set_option autoImplicit false

namespace DesignTokens

/-! ## Words -/

/-- The maximal runs of characters of a kind. -/
def words (keep : Char → Bool) (cs : List Char) : List (List Char) :=
  (cs.splitOnP fun c => !keep c).filter fun run => !run.isEmpty

/-- A text in lower case. -/
def lowered (cs : List Char) : List Char := cs.map Char.toLower

/-- Words in lower case, joined by hyphens. -/
def hyphenated (ws : List (List Char)) : List Char := List.intercalate ['-'] (ws.map lowered)

section Words

variable {keep : Char → Bool}

@[simp] theorem words_nil : words keep [] = [] := rfl

/-- A character of another kind ends a word. -/
theorem words_append_cons {c : Char} (gap : keep c = false) (before after : List Char) :
    words keep (before ++ c :: after) = words keep before ++ words keep after := by
  rw [words, List.splitOnP_append_cons _ _ (by simp [gap]), List.filter_append]
  rfl

theorem words_cons_of_gap {c : Char} (gap : keep c = false) (rest : List Char) :
    words keep (c :: rest) = words keep rest := by
  simpa using words_append_cons gap [] rest

/-- The words of texts that are joined by a separator are the words of the texts. -/
theorem words_intercalate {separator : Char} (gap : keep separator = false)
    (texts : List (List Char)) :
    words keep (List.intercalate [separator] texts) = texts.flatMap (words keep) := by
  induction texts with
  | nil => rfl
  | cons text rest ih =>
      cases rest with
      | nil => simp
      | cons next others =>
          rw [List.intercalate_cons_cons, List.append_assoc, List.singleton_append,
            words_append_cons gap, ih]
          rfl

/-- A part of a split text has characters of its kind only. -/
theorem keep_of_mem_splitOnP {cs part : List Char} (h : part ∈ cs.splitOnP fun c => !keep c) :
    ∀ c ∈ part, keep c = true := by
  induction cs generalizing part with
  | nil => simp_all
  | cons c rest ih =>
      rw [List.splitOnP_cons_eq_if_modifyHead] at h
      cases kept : keep c with
      | false =>
          simp only [kept, Bool.not_false, if_true, List.mem_cons] at h
          rcases h with rfl | h
          · simp
          · exact ih h
      | true =>
          obtain ⟨first, later, split⟩ := List.exists_cons_of_ne_nil
            (List.splitOnP_ne_nil (fun c => !keep c) rest)
          simp only [kept, Bool.not_true, Bool.false_eq_true, if_false, split,
            List.modifyHead_cons, List.mem_cons] at h
          rcases h with rfl | h
          · intro d hd
            rcases List.mem_cons.1 hd with rfl | hd
            · exact kept
            · exact ih (split ▸ List.mem_cons_self) d hd
          · exact ih (split ▸ List.mem_cons_of_mem _ h)

/-- A word has characters of its kind only. -/
theorem keep_of_mem_words {cs word : List Char} (h : word ∈ words keep cs) :
    ∀ c ∈ word, keep c = true :=
  keep_of_mem_splitOnP (List.mem_filter.1 h).1

/-- Renaming characters within their kind renames them in the words. -/
theorem words_map {keep' : Char → Bool} {f : Char → Char} (same : ∀ c, keep' (f c) = keep c)
    (cs : List Char) : words keep' (cs.map f) = (words keep cs).map (List.map f) := by
  have splits : (cs.map f).splitOnP (fun c => !keep' c) =
      (cs.splitOnP fun c => !keep c).map (List.map f) := by
    induction cs with
    | nil => rfl
    | cons c rest ih =>
        rw [List.map_cons, List.splitOnP_cons_eq_if_modifyHead, List.splitOnP_cons_eq_if_modifyHead,
          ih, same]
        cases keep c <;> cases rest.splitOnP (fun c => !keep c) <;> simp
  rw [words, splits, List.filter_map, words]
  congr 1
  apply List.filter_congr
  intro run _
  cases run <;> rfl

end Words

/-! ## Kebab case -/

/-- Joined parts after a first one. -/
theorem intercalate_cons_eq (separator : Char) (part : List Char) (rest : List (List Char)) :
    List.intercalate [separator] (part :: rest) = part ++ rest.flatMap (separator :: ·) := by
  induction rest generalizing part with
  | nil => simp
  | cons next others ih =>
      rw [List.intercalate_cons_cons, ih]
      simp

/-- Hyphenated words after a first one. -/
theorem hyphenated_cons (word : List Char) (rest : List (List Char)) :
    hyphenated (word :: rest) = lowered word ++ rest.flatMap fun w => '-' :: lowered w := by
  rw [hyphenated, List.map_cons, intercalate_cons_eq, List.flatMap_map]

/-- Kebab case from the middle of a text on: within a word, between two words, and before the first
word. -/
theorem kebabFrom_eq (cs : List Char) :
    ∃ run later, cs.splitOnP (fun c => !isKept c) = run :: later ∧
      kebabFrom true false cs =
        lowered run ++ (later.filter fun w => !w.isEmpty).flatMap (fun w => '-' :: lowered w) ∧
      kebabFrom true true cs = (words isKept cs).flatMap (fun w => '-' :: lowered w) ∧
      ∀ gap, kebabFrom false gap cs = hyphenated (words isKept cs) := by
  induction cs with
  | nil => exact ⟨[], [], rfl, rfl, rfl, fun _ => rfl⟩
  | cons c rest ih =>
      obtain ⟨run, later, split, inWord, between, start⟩ := ih
      have wordsRest : words isKept rest = (run :: later).filter fun w => !w.isEmpty := by
        rw [words, split]
      cases kept : isKept c with
      | true =>
          have splitCons : (c :: rest).splitOnP (fun c => !isKept c) = (c :: run) :: later := by
            rw [List.splitOnP_cons_eq_if_modifyHead, split]
            simp [kept]
          have wordsCons : words isKept (c :: rest) =
              (c :: run) :: later.filter fun w => !w.isEmpty := by
            rw [words, splitCons]
            simp
          refine ⟨c :: run, later, splitCons, ?_, ?_, ?_⟩
          · simp [kebabFrom, kept, inWord, lowered]
          · simp [kebabFrom, kept, inWord, wordsCons, lowered]
          · intro gap
            rw [wordsCons, hyphenated_cons]
            simp [kebabFrom, kept, inWord, lowered]
      | false =>
          have splitCons : (c :: rest).splitOnP (fun c => !isKept c) = [] :: run :: later := by
            rw [List.splitOnP_cons_eq_if_modifyHead, split]
            simp [kept]
          refine ⟨[], run :: later, splitCons, ?_, ?_, ?_⟩
          · simp [kebabFrom, kept, between, wordsRest, lowered]
          · simp [kebabFrom, kept, between, words_cons_of_gap kept]
          · intro gap
            simp [kebabFrom, kept, start, words_cons_of_gap kept]

/-- Kebab case joins the words of kept characters. -/
theorem kebabChars_eq (cs : List Char) : kebabChars cs = hyphenated (words isKept cs) := by
  obtain ⟨_, _, _, _, _, start⟩ := kebabFrom_eq cs
  rw [kebabChars_eq_kebabFrom]
  exact start false

/-! ## Canonical texts -/

/-- The characters of a canonical text. -/
def canonicalChars (cs : List Char) : List Char := kebabChars (cs.map pathSeparator)

theorem canonicalText_eq (text : String) :
    canonicalText text = String.ofList (canonicalChars text.toList) := rfl

theorem pathSeparator_of_isAlphanum {c : Char} (h : c.isAlphanum = true) : pathSeparator c = c := by
  unfold pathSeparator
  split
  · next separator =>
      rcases (by simpa using separator) with rfl | rfl <;> exact absurd h (by decide)
  · rfl

/-- Of the characters of a path, canonical texts keep the letters and digits. -/
theorem isKept_pathSeparator (c : Char) : isKept (pathSeparator c) = c.isAlphanum := by
  unfold pathSeparator
  split
  · next separator => rcases (by simpa using separator) with rfl | rfl <;> decide
  · next other => simp_all [isKept]

/-- A canonical text joins the words of letters and digits. -/
theorem canonicalChars_eq (cs : List Char) :
    canonicalChars cs = hyphenated (words Char.isAlphanum cs) := by
  have unchanged : ∀ word ∈ words Char.isAlphanum cs, word.map pathSeparator = word := by
    intro word member
    calc word.map pathSeparator = word.map id :=
          List.map_congr_left fun c hc => pathSeparator_of_isAlphanum (keep_of_mem_words member c hc)
      _ = word := List.map_id word
  rw [canonicalChars, kebabChars_eq, words_map isKept_pathSeparator,
    List.map_congr_left unchanged, List.map_id']

/-! ## Canonical texts of collected names -/

theorem isAlphanum_hyphen : Char.isAlphanum '-' = false := by decide

theorem isAlphanum_dot : Char.isAlphanum '.' = false := by decide

theorem toLower_of_isWordChar {c : Char} (h : isWordChar c = true) : c.toLower = c := by
  have lower (d : Char) : d.isLower = (decide ('a'.val ≤ d.val) && decide (d.val ≤ 'z'.val)) := rfl
  have digit (d : Char) : d.isDigit = (decide ('0'.val ≤ d.val) && decide (d.val ≤ '9'.val)) := rfl
  unfold isWordChar at h
  unfold Char.toLower
  grind

theorem isAlphanum_of_isWordChar {c : Char} (h : isWordChar c = true) : c.isAlphanum = true := by
  have kinds : c.isAlphanum = (c.isUpper || c.isLower || c.isDigit) := rfl
  unfold isWordChar at h
  grind

/-- Canonical text from the middle of a text on. -/
def canonicalFrom (started gap : Bool) (cs : List Char) : List Char :=
  kebabFrom started gap (cs.map pathSeparator)

theorem canonicalChars_eq_canonicalFrom (cs : List Char) :
    canonicalChars cs = canonicalFrom false false cs := kebabChars_eq_kebabFrom _

theorem canonicalFrom_cons_of_isAlphanum {c : Char} (h : c.isAlphanum = true)
    (started gap : Bool) (rest : List Char) :
    canonicalFrom started gap (c :: rest) =
      if started && gap then '-' :: c.toLower :: canonicalFrom true false rest
      else c.toLower :: canonicalFrom true false rest := by
  have kept := isKept_pathSeparator c
  rw [pathSeparator_of_isAlphanum h, h] at kept
  simp [canonicalFrom, kebabFrom, pathSeparator_of_isAlphanum h, kept]

theorem canonicalFrom_cons_of_gap {c : Char} (h : c.isAlphanum = false) (started gap : Bool)
    (rest : List Char) :
    canonicalFrom started gap (c :: rest) = canonicalFrom started true rest := by
  simp [canonicalFrom, kebabFrom, isKept_pathSeparator, h]

/-- Lower case makes no difference to a canonical text. -/
theorem canonicalFrom_cons_toLower {c : Char} (h : c.isAlphanum = true) (started gap : Bool)
    (rest : List Char) :
    canonicalFrom started gap (c.toLower :: rest) = canonicalFrom started gap (c :: rest) := by
  have word := isWordChar_toLower h
  rw [canonicalFrom_cons_of_isAlphanum (isAlphanum_of_isWordChar word), toLower_of_isWordChar word,
    canonicalFrom_cons_of_isAlphanum h]

/-- Before the first word a gap makes no difference. -/
theorem canonicalFrom_false (gap gap' : Bool) (cs : List Char) :
    canonicalFrom false gap cs = canonicalFrom false gap' cs := by
  obtain ⟨_, _, _, _, _, start⟩ := kebabFrom_eq (cs.map pathSeparator)
  rw [canonicalFrom, start, canonicalFrom, start]

/-- The canonical text of kebab case within a name: a hyphen that is due counts as a gap. -/
theorem canonicalFrom_kebabFrom_true (started gap due : Bool) (cs : List Char) :
    canonicalFrom started gap (kebabFrom true due cs) = canonicalFrom started (gap || due) cs := by
  induction cs generalizing started gap due with
  | nil => rfl
  | cons c rest ih =>
      have hyphen := canonicalFrom_cons_of_gap isAlphanum_hyphen
      by_cases alphanum : c.isAlphanum
      · cases due <;>
          simp [kebabFrom, isKept, alphanum, hyphen, canonicalFrom_cons_toLower alphanum,
            canonicalFrom_cons_of_isAlphanum alphanum, ih]
      · have gapHere := canonicalFrom_cons_of_gap (Bool.eq_false_iff.2 alphanum)
        by_cases dot : c = '.'
        · subst dot
          have dotLower : Char.toLower '.' = '.' := by decide
          cases due <;>
            simp [kebabFrom, isKept, dotLower, hyphen, gapHere, ih]
        · simp [kebabFrom, isKept, alphanum, dot, gapHere, ih]

/-- The canonical text of kebab case before the first word. -/
theorem canonicalFrom_kebabFrom_false (gap due : Bool) (cs : List Char) :
    canonicalFrom false gap (kebabFrom false due cs) = canonicalFrom false gap cs := by
  induction cs generalizing gap due with
  | nil => rfl
  | cons c rest ih =>
      by_cases alphanum : c.isAlphanum
      · simp [kebabFrom, isKept, alphanum, canonicalFrom_cons_toLower alphanum,
          canonicalFrom_cons_of_isAlphanum alphanum, canonicalFrom_kebabFrom_true]
      · have gapHere := canonicalFrom_cons_of_gap (Bool.eq_false_iff.2 alphanum)
        by_cases dot : c = '.'
        · subst dot
          have dotLower : Char.toLower '.' = '.' := by decide
          simp [kebabFrom, isKept, dotLower, gapHere, canonicalFrom_kebabFrom_true]
        · have dropped : isKept c = false := by simp [isKept, alphanum, dot]
          rw [kebabFrom, dropped, if_neg Bool.false_ne_true, ih, gapHere]
          exact canonicalFrom_false gap true rest

/-- Kebab case leaves the canonical text alone. -/
theorem canonicalChars_kebabChars (cs : List Char) :
    canonicalChars (kebabChars cs) = canonicalChars cs := by
  rw [canonicalChars_eq_canonicalFrom, canonicalChars_eq_canonicalFrom, kebabChars_eq_kebabFrom]
  exact canonicalFrom_kebabFrom_false false false cs

/-- A dot before a hyphen makes no difference to a canonical text. -/
theorem canonicalFrom_closeDots (started gap : Bool) (cs : List Char) :
    canonicalFrom started gap (closeDots cs) = canonicalFrom started gap cs := by
  have hyphen := canonicalFrom_cons_of_gap isAlphanum_hyphen
  fun_induction closeDots cs generalizing started gap with
  | case1 rest ih =>
      rw [hyphen, canonicalFrom_cons_of_gap isAlphanum_dot, hyphen, ih]
  | case2 c rest _ ih =>
      by_cases alphanum : c.isAlphanum
      · simp only [canonicalFrom_cons_of_isAlphanum alphanum, ih]
      · simp only [canonicalFrom_cons_of_gap (Bool.eq_false_iff.2 alphanum), ih]
  | case3 => rfl

theorem canonicalChars_closeDots (cs : List Char) :
    canonicalChars (closeDots cs) = canonicalChars cs := by
  rw [canonicalChars_eq_canonicalFrom, canonicalChars_eq_canonicalFrom]
  exact canonicalFrom_closeDots false false cs

/-! ## Paths of keys -/

/-- The words of letters and digits of a path of keys. -/
def pathWords (segments : List String) : List (List Char) :=
  segments.flatMap fun segment => words Char.isAlphanum segment.toList

/-- Keys without characters have no words. -/
theorem flatMap_words_filter (keep : Char → Bool) (segments : List String) :
    ((segments.filter (!·.isEmpty)).flatMap fun segment => words keep segment.toList) =
      segments.flatMap fun segment => words keep segment.toList := by
  induction segments with
  | nil => rfl
  | cons segment rest ih =>
      by_cases empty : segment = ""
      · subst empty
        simpa using ih
      · simp [empty, ih]

theorem pathWords_filter (segments : List String) :
    pathWords (segments.filter (!·.isEmpty)) = pathWords segments :=
  flatMap_words_filter Char.isAlphanum segments

/-- Keys that are joined by a separator have the words of the path. -/
theorem words_intercalate_keys {separator : Char} (gap : separator.isAlphanum = false)
    (segments : List String) :
    words Char.isAlphanum (List.intercalate [separator] (segments.map String.toList)) =
      pathWords segments := by
  rw [words_intercalate gap, List.flatMap_map, pathWords]

/-- The canonical text of a collected name is made of the words of the keys. -/
theorem canonicalText_joinPath (segments : List String) :
    canonicalText (joinPath segments) = String.ofList (hyphenated (pathWords segments)) := by
  rw [canonicalText_eq, joinPath, String.toList_ofList]
  congr 1
  calc canonicalChars (closeDots (kebabChars _)) = canonicalChars (kebabChars _) :=
        canonicalChars_closeDots _
    _ = canonicalChars _ := canonicalChars_kebabChars _
    _ = hyphenated (pathWords (segments.filter (!·.isEmpty))) := by
        rw [canonicalChars_eq, words_intercalate_keys isAlphanum_hyphen]
    _ = hyphenated (pathWords segments) := by rw [pathWords_filter]

/-- The canonical text of a path that is written with dots is the one of its collected name. -/
theorem canonicalText_intercalate (segments : List String) :
    canonicalText (String.intercalate "." segments) = canonicalText (joinPath segments) := by
  rw [canonicalText_joinPath, canonicalText_eq, canonicalChars_eq, String.toList_intercalate]
  congr 2
  exact words_intercalate_keys isAlphanum_dot segments

end DesignTokens
