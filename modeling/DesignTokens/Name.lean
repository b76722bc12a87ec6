import DesignTokens.Spelling

/-!
# Token names

The names of design tokens. `kebab` lower-cases a text and turns every run of characters that
cannot stand in a name into one hyphen between the parts that remain; `joinPath` builds a
collected name from the keys on the way to a token; `CanonicalName` is the type of final names.

A `CanonicalName` is words of lower-case letters and digits joined by single hyphens. Both ways of
making one keep that spelling: `isSpelled_kebabChars` for `CanonicalName.derive?`, and
`isSpelled_respell` for the corrected name `CanonicalName.correction?`.
-/

set_option autoImplicit false

namespace DesignTokens

/-! ## Kebab case -/

/-- Characters that kebab case keeps: ASCII letters and digits, and the dot. -/
def isKept (c : Char) : Bool := c.isAlphanum || c == '.'

/-- What is written for a character: the character if it is kept, or else a hyphen. -/
def kebabChar (c : Char) : Char := if isKept c then c else '-'

/-- Writes characters behind `out`, which has its last character first. A hyphen is not written right
behind another one. -/
def writeKebab (out : List Char) : List Char → List Char
  | [] => out
  | c :: rest =>
      if kebabChar c == '-' && out.head? == some '-' then writeKebab out rest
      else writeKebab (kebabChar c :: out) rest

/-- Drops a hyphen at the start. -/
def dropHyphen : List Char → List Char
  | '-' :: rest => rest
  | cs => cs

/-- The kept characters of a text in lower case, with one hyphen for each run of other characters
between two of them. -/
def kebabChars (cs : List Char) : List Char :=
  -- Runs leave single hyphens, so at most one stands at each end.
  let written := (writeKebab [] cs).reverse
  (dropHyphen (dropHyphen written).reverse).reverse.map Char.toLower

/-- Kebab case of a text; dots stay. -/
def kebab (text : String) : String := String.ofList (kebabChars text.toList)

/-- Drops the dot of every `.-`, reading from the left. -/
def closeDots : List Char → List Char
  -- The hyphen has been read: of several dots only the last one is dropped.
  | '.' :: '-' :: rest => '-' :: closeDots rest
  | c :: rest => c :: closeDots rest
  | [] => []

/-- The collected name of a path of keys: the non-empty keys joined by hyphens, in kebab case,
without the dots that end a key. -/
def joinPath (segments : List String) : String :=
  String.ofList (closeDots (kebabChars
    (List.intercalate ['-'] ((segments.filter (!·.isEmpty)).map String.toList))))

/-- Slashes and dots separate the parts of a path, as hyphens do. -/
def pathSeparator (c : Char) : Char := if c == '/' || c == '.' then '-' else c

/-- The final spelling of a collected name; empty if nothing of it can be kept. -/
def canonicalText (text : String) : String :=
  String.ofList (kebabChars (text.toList.map pathSeparator))

/-! ## Kebab case in one pass -/

/-- Kebab case from the middle of a text on. `started` tells that a character has been kept
before, and `gap` that something has been left out since then, so that a hyphen is due before the
next kept character. -/
def kebabFrom (started gap : Bool) : List Char → List Char
  | [] => []
  | c :: rest =>
      if isKept c then
        -- A gap at the start leaves no hyphen, and neither does one at the end.
        if started && gap then '-' :: c.toLower :: kebabFrom true false rest
        else c.toLower :: kebabFrom true false rest
      else kebabFrom started true rest

theorem ne_hyphen_of_isKept {c : Char} (kept : isKept c = true) : c ≠ '-' := by
  rintro rfl
  exact absurd kept (by decide)

/-- A kept character is written. -/
theorem writeKebab_cons_of_isKept {c : Char} (kept : isKept c = true) (out rest : List Char) :
    writeKebab out (c :: rest) = writeKebab (c :: out) rest := by
  simp [writeKebab, kebabChar, kept, ne_hyphen_of_isKept kept]

/-- Another one leaves a hyphen if none stands right before. -/
theorem writeKebab_cons_of_gap {c : Char} (gap : isKept c = false) (out rest : List Char) :
    writeKebab out (c :: rest) =
      if out.head? = some '-' then writeKebab out rest else writeKebab ('-' :: out) rest := by
  simp [writeKebab, kebabChar, gap]

/-- What has been written stays. -/
theorem suffix_writeKebab (out cs : List Char) : out <:+ writeKebab out cs := by
  induction cs generalizing out with
  | nil => exact List.suffix_rfl
  | cons c rest ih =>
      rw [writeKebab]
      split
      · exact ih out
      · exact (List.suffix_cons _ _).trans (ih _)

/-- Of what has been written only the last character is looked at. -/
theorem writeKebab_append (last : Char) (out front cs : List Char) :
    writeKebab (last :: (out ++ front)) cs = writeKebab (last :: out) cs ++ front := by
  induction cs generalizing last out with
  | nil => rfl
  | cons c rest ih =>
      cases kept : isKept c with
      | true =>
          rw [writeKebab_cons_of_isKept kept, writeKebab_cons_of_isKept kept]
          exact ih c (last :: out)
      | false =>
          rw [writeKebab_cons_of_gap kept, writeKebab_cons_of_gap kept, List.head?_cons,
            List.head?_cons]
          split
          · exact ih last out
          · exact ih '-' (last :: out)

theorem dropHyphen_of_ne {cs : List Char} (other : cs.head? ≠ some '-') : dropHyphen cs = cs := by
  unfold dropHyphen
  split
  · exact absurd rfl other
  · rfl

/-- What is written behind a kept character, and behind a hyphen, which goes if nothing follows. -/
theorem writeKebab_eq (out cs : List Char) :
    (∀ last, last ≠ '-' →
      (dropHyphen (writeKebab (last :: out) cs)).reverse.map Char.toLower =
        (last :: out).reverse.map Char.toLower ++ kebabFrom true false cs) ∧
    (dropHyphen (writeKebab ('-' :: out) cs)).reverse.map Char.toLower =
      out.reverse.map Char.toLower ++ kebabFrom true true cs := by
  induction cs generalizing out with
  | nil =>
      refine ⟨fun last other => ?_, ?_⟩
      · rw [writeKebab, dropHyphen_of_ne (by simpa using other), kebabFrom, List.append_nil]
      · rw [writeKebab, dropHyphen, kebabFrom, List.append_nil]
  | cons c rest ih =>
      cases kept : isKept c with
      | true =>
          have other := ne_hyphen_of_isKept kept
          refine ⟨fun last _ => ?_, ?_⟩
          · rw [writeKebab_cons_of_isKept kept, (ih (last :: out)).1 c other]
            simp [kebabFrom, kept]
          · rw [writeKebab_cons_of_isKept kept, (ih ('-' :: out)).1 c other]
            simp [kebabFrom, kept]
      | false =>
          refine ⟨fun last other => ?_, ?_⟩
          · rw [writeKebab_cons_of_gap kept, if_neg (by simpa using other), (ih (last :: out)).2]
            simp [kebabFrom, kept]
          · rw [writeKebab_cons_of_gap kept, List.head?_cons, if_pos rfl, (ih out).2]
            simp [kebabFrom, kept]

/-- A hyphen that has been written first goes, whatever follows. -/
theorem trimmed_writeKebab_hyphen (cs : List Char) :
    (dropHyphen (dropHyphen (writeKebab ['-'] cs).reverse).reverse).reverse.map Char.toLower =
      kebabFrom false true cs := by
  induction cs with
  | nil => rfl
  | cons c rest ih =>
      cases kept : isKept c with
      | true =>
          have behind := (writeKebab_eq [] rest).1 c (ne_hyphen_of_isKept kept)
          rw [writeKebab_cons_of_isKept kept, ← List.nil_append ['-'], writeKebab_append,
            List.reverse_append, List.reverse_singleton, List.singleton_append, dropHyphen,
            List.reverse_reverse, behind]
          simp [kebabFrom, kept]
      | false =>
          rw [writeKebab_cons_of_gap kept, List.head?_cons, if_pos rfl, ih]
          simp [kebabFrom, kept]

/-- **Kebab case in one pass**: looking back for a hyphen and trimming the ends afterwards comes to
the same as writing a hyphen only when the next kept character is there. -/
theorem kebabChars_eq_kebabFrom (cs : List Char) : kebabChars cs = kebabFrom false false cs := by
  rw [kebabChars]
  cases cs with
  | nil => rfl
  | cons c rest =>
      cases kept : isKept c with
      | true =>
          have other := ne_hyphen_of_isKept kept
          have starts : (writeKebab [c] rest).reverse.head? ≠ some '-' := by
            obtain ⟨later, written⟩ := suffix_writeKebab [c] rest
            simp [← written, other]
          rw [writeKebab_cons_of_isKept kept, dropHyphen_of_ne starts, List.reverse_reverse,
            (writeKebab_eq [] rest).1 c other]
          simp [kebabFrom, kept]
      | false =>
          rw [writeKebab_cons_of_gap kept, List.head?_nil, if_neg (by simp),
            trimmed_writeKebab_hyphen]
          simp [kebabFrom, kept]

/-! ## The canonical spelling -/

/-- Characters of the words of a name. -/
def isWordChar (c : Char) : Bool := c.isLower || c.isDigit

/-- Whether a text goes on a name: words joined by single hyphens, the last word not empty.
`inWord` tells that a word character stands right before. -/
def spelledFrom (inWord : Bool) : List Char → Bool
  | [] => inWord
  | c :: rest =>
      if isWordChar c then spelledFrom true rest
      else c == '-' && inWord && spelledFrom false rest

/-- One or more words of lower-case letters and digits, joined by single hyphens. -/
def isSpelled (cs : List Char) : Bool := spelledFrom false cs

theorem isWordChar_hyphen : isWordChar '-' = false := by decide

/-- An ASCII letter or digit in lower case is a word character. -/
theorem isWordChar_toLower {c : Char} (h : c.isAlphanum = true) : isWordChar c.toLower = true := by
  have upper (d : Char) : d.isUpper = decide ('A'.val ≤ d.val ∧ d.val ≤ 'Z'.val) := rfl
  have lower (d : Char) : d.isLower = (decide ('a'.val ≤ d.val) && decide (d.val ≤ 'z'.val)) := rfl
  have kinds : (c.isUpper || c.isLower || c.isDigit) = true := h
  unfold isWordChar Char.toLower
  grind

/-- Kebab case of a text without dots goes on a name that has started. -/
theorem spelledFrom_kebabFrom (gap : Bool) (cs : List Char) (noDots : '.' ∉ cs) :
    spelledFrom true (kebabFrom true gap cs) = true := by
  induction cs generalizing gap with
  | nil => rfl
  | cons c rest ih =>
      have restDots : '.' ∉ rest := fun h => noDots (List.mem_cons_of_mem c h)
      have cDot : c ≠ '.' := fun h => noDots (h ▸ List.mem_cons_self)
      by_cases hc : c.isAlphanum
      · have word := isWordChar_toLower hc
        cases gap <;> simp [kebabFrom, isKept, hc, spelledFrom, word, isWordChar_hyphen, ih false restDots]
      · simp [kebabFrom, isKept, hc, cDot, ih true restDots]

/-- Before anything is kept, a gap leaves no hyphen. -/
theorem isSpelled_kebabFrom (gap : Bool) (cs : List Char) (noDots : '.' ∉ cs) :
    kebabFrom false gap cs = [] ∨ isSpelled (kebabFrom false gap cs) = true := by
  induction cs generalizing gap with
  | nil => exact Or.inl rfl
  | cons c rest ih =>
      have restDots : '.' ∉ rest := fun h => noDots (List.mem_cons_of_mem c h)
      have cDot : c ≠ '.' := fun h => noDots (h ▸ List.mem_cons_self)
      by_cases hc : c.isAlphanum
      · right
        have word := isWordChar_toLower hc
        simp [kebabFrom, isKept, hc, isSpelled, spelledFrom, word,
          spelledFrom_kebabFrom false rest restDots]
      · simpa [kebabFrom, isKept, hc, cDot] using ih true restDots

/-- Kebab case of a text without dots is empty or a canonical spelling. -/
theorem isSpelled_kebabChars (cs : List Char) (noDots : '.' ∉ cs) :
    kebabChars cs = [] ∨ isSpelled (kebabChars cs) = true := by
  rw [kebabChars_eq_kebabFrom]
  exact isSpelled_kebabFrom false cs noDots

theorem dot_notMem_map_pathSeparator (cs : List Char) : '.' ∉ cs.map pathSeparator := by
  intro h
  obtain ⟨c, _, hc⟩ := List.mem_map.1 h
  unfold pathSeparator at hc
  split at hc
  · exact absurd hc (by decide)
  · next other => exact other (by simp [hc])

/-! ## The misspelt grid -/

/-- Whether the misspelling `gird-` stands in a text. -/
def isMisspelt : List Char → Bool
  | 'g' :: 'i' :: 'r' :: 'd' :: '-' :: _ => true
  | _ :: rest => isMisspelt rest
  | [] => false

/-- Writes `grid-` for every `gird-`. -/
def respell : List Char → List Char
  | 'g' :: 'i' :: 'r' :: 'd' :: '-' :: rest => 'g' :: 'r' :: 'i' :: 'd' :: '-' :: respell rest
  | c :: rest => c :: respell rest
  | [] => []

theorem spelledFrom_respell (inWord : Bool) (cs : List Char) :
    spelledFrom inWord (respell cs) = spelledFrom inWord cs := by
  fun_induction respell cs generalizing inWord with
  | case1 rest ih =>
      have g : isWordChar 'g' = true := by decide
      have i : isWordChar 'i' = true := by decide
      have r : isWordChar 'r' = true := by decide
      have d : isWordChar 'd' = true := by decide
      simp [spelledFrom, g, i, r, d, isWordChar_hyphen, ih]
  | case2 c rest _ ih => simp [spelledFrom, ih]
  | case3 => rfl

/-- Correcting the misspelling keeps the canonical spelling. -/
theorem isSpelled_respell (cs : List Char) : isSpelled (respell cs) = isSpelled cs :=
  spelledFrom_respell false cs

/-! ## Canonical names -/

/-- A final token name: words of lower-case letters and digits joined by single hyphens. -/
structure CanonicalName where
  text : String
  spelled : isSpelled text.toList = true
deriving DecidableEq, Repr

namespace CanonicalName

theorem ext_text {first second : CanonicalName} (same : first.text = second.text) :
    first = second := by
  cases first; cases second; cases same; rfl

instance : ToString CanonicalName := ⟨CanonicalName.text⟩

/-- The name of a field that holds a canonical name, as error texts give it. -/
def field : String := "CanonicalName"

/-- The canonical form of a collected name, if anything of it can be kept. -/
def derive? (raw : String) : Option CanonicalName :=
  if h : canonicalText raw = "" then none
  else some ⟨canonicalText raw, by
    rcases isSpelled_kebabChars _ (dot_notMem_map_pathSeparator raw.toList) with empty | spelled
    · exact absurd (by simp [canonicalText, empty]) h
    · simpa [canonicalText] using spelled⟩

/-- Reads a text that has to be a canonical name already. -/
def parse (text : String) : Except SpellingError CanonicalName :=
  if text = "" then .error (.empty field)
  else if h : isSpelled text.toList = true then .ok ⟨text, h⟩
  else .error (.notAllowed field text)

/-- The name with `grid-` for the misspelling `gird-`, if that stands in it. -/
def correction? (name : CanonicalName) : Option CanonicalName :=
  if isMisspelt name.text.toList then
    some ⟨String.ofList (respell name.text.toList), by
      rw [String.toList_ofList, isSpelled_respell]
      exact name.spelled⟩
  else none

theorem derive?_text {raw : String} {name : CanonicalName} (h : derive? raw = some name) :
    name.text = canonicalText raw := by
  unfold derive? at h
  split at h
  · exact absurd h (by simp)
  · exact (congrArg CanonicalName.text (Option.some.inj h)).symm

theorem derive?_eq_none_iff (raw : String) : derive? raw = none ↔ canonicalText raw = "" := by
  unfold derive?
  split <;> simp_all

/-- Reading accepts exactly the canonical spellings. -/
theorem parse_text (name : CanonicalName) : parse name.text = .ok name := by
  have nonempty : name.text ≠ "" := by
    intro h
    have spelled := name.spelled
    rw [h] at spelled
    exact absurd spelled (by decide)
  unfold parse
  rw [if_neg nonempty, dif_pos name.spelled]

end CanonicalName

end DesignTokens
