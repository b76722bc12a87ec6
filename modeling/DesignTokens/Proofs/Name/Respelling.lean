import DesignTokens.Name
import Mathlib.Data.List.Infix

/-!
# Respelling names

A text is cut into pieces at the misspelling `gird-`, and respelling writes `grid-` between the same
pieces (`exists_pieces`). No piece has the misspelling, and none arises where the pieces meet, since no
end of one spelling is a start of the other (`isMisspelt_respell`). So the correction of a name is
another name, of the same length, without a correction of its own (`correction_is_final`). A start of a
text is found in the respelt text as in the text itself if no spelling can begin in it
(`prefix_respell_iff`).
-/

set_option autoImplicit false

namespace DesignTokens

/-! ## The two spellings -/

/-- The misspelling that is corrected. -/
def misspelling : List Char := ['g', 'i', 'r', 'd', '-']

/-- What is written for the misspelling. -/
def rightSpelling : List Char := ['g', 'r', 'i', 'd', '-']

theorem not_misspelling_of_other {c : Char} {rest : List Char}
    (other : ∀ tail, c = 'g' → rest = 'i' :: 'r' :: 'd' :: '-' :: tail → False) :
    ¬misspelling <+: c :: rest := by
  rintro ⟨tail, start⟩
  obtain ⟨first, further⟩ := List.cons.inj start
  exact other tail first.symm further.symm

/-- The misspelling is told wherever it stands. -/
theorem isMisspelt_iff (cs : List Char) : isMisspelt cs = true ↔ misspelling <:+: cs := by
  fun_induction isMisspelt cs with
  | case1 rest => exact iff_of_true rfl (List.prefix_append misspelling rest).isInfix
  | case2 c rest other ih =>
      rw [ih, List.infix_cons_iff, or_iff_right (not_misspelling_of_other other)]
  | case3 => simp [misspelling]

/-- A character more before joined pieces is a character more before the first of them. -/
theorem intercalate_cons_piece (separator : List Char) (c : Char) (first : List Char)
    (later : List (List Char)) :
    List.intercalate separator ((c :: first) :: later) =
      c :: List.intercalate separator (first :: later) := by
  cases later with
  | nil => simp
  | cons next rest => rw [List.intercalate_cons_cons, List.intercalate_cons_cons]; rfl

theorem first_prefix_intercalate (separator first : List Char) (later : List (List Char)) :
    first <+: List.intercalate separator (first :: later) := by
  cases later with
  | nil => simp
  | cons next rest =>
      rw [List.intercalate_cons_cons, List.append_assoc]
      exact List.prefix_append _ _

/-- Respelling changes the misspellings, and what stands between them stays. -/
theorem exists_pieces (cs : List Char) :
    ∃ first later, (∀ piece ∈ first :: later, ¬misspelling <:+: piece) ∧
      cs = List.intercalate misspelling (first :: later) ∧
      respell cs = List.intercalate rightSpelling (first :: later) := by
  fun_induction respell cs with
  | case1 rest ih =>
      obtain ⟨first, later, free, split, respelt⟩ := ih
      refine ⟨[], first :: later, List.forall_mem_cons.2 ⟨by simp [misspelling], free⟩, ?_, ?_⟩
      · rw [List.intercalate_cons_cons, ← split]
        rfl
      · rw [List.intercalate_cons_cons, ← respelt]
        rfl
  | case2 c rest other ih =>
      obtain ⟨first, later, free, split, respelt⟩ := ih
      obtain ⟨own, others⟩ := List.forall_mem_cons.1 free
      -- At the start of the longer piece it would stand at the start of the text.
      have notStart : ¬misspelling <+: c :: first := by
        intro start
        have within : c :: first <+: c :: rest := by
          rw [List.prefix_cons_inj, split]
          exact first_prefix_intercalate misspelling first later
        exact not_misspelling_of_other other (start.trans within)
      refine ⟨c :: first, later, List.forall_mem_cons.2 ⟨?_, others⟩, ?_, ?_⟩
      · rw [List.infix_cons_iff]
        exact not_or.2 ⟨notStart, own⟩
      · rw [intercalate_cons_piece, ← split]
      · rw [intercalate_cons_piece, ← respelt]
  | case3 => exact ⟨[], [], by simp [misspelling], rfl, rfl⟩

theorem length_respell (cs : List Char) : (respell cs).length = cs.length := by
  fun_induction respell cs with
  | case1 rest ih => simp [ih]
  | case2 c rest _ ih => simp [ih]
  | case3 => rfl

/-! ## Starts of texts -/

/-- Whether no spelling can begin in a text, whatever follows it: behind a `g` stands another letter
than in both spellings. -/
def isSteady : List Char → Bool
  | [] => true
  | c :: rest => (c != 'g' || rest.head?.any fun next => next != 'i' && next != 'r') && isSteady rest

/-- Respelling keeps a letter at the start, unless it is the `g` of a misspelling. -/
theorem respell_cons {c : Char} {rest : List Char}
    (other : c ≠ 'g' ∨ rest.head? ≠ some 'i') : respell (c :: rest) = c :: respell rest := by
  apply respell.eq_2
  rintro tail rfl rfl
  simp at other

/-- Respelling changes no letter but those after a `g`, so that a text which starts otherwise is
read off. -/
theorem respell_eq_cons {c : Char} {cs rest : List Char} (h : respell cs = c :: rest)
    (other : c ≠ 'g') : ∃ tail, cs = c :: tail ∧ rest = respell tail := by
  fun_cases respell cs with
  | case1 tail =>
      simp only [respell, List.cons.injEq] at h
      exact absurd h.1.symm other
  | case2 d tail notMisspelt =>
      rw [respell.eq_2 _ _ notMisspelt, List.cons.injEq] at h
      exact ⟨tail, by rw [h.1], h.2.symm⟩
  | case3 => simp [respell] at h

/-- No misspelling is left after respelling. -/
theorem isMisspelt_respell (cs : List Char) : isMisspelt (respell cs) = false := by
  fun_induction respell cs with
  | case1 rest ih => simpa [isMisspelt] using ih
  | case2 c rest notMisspelt ih =>
      unfold isMisspelt
      split
      · next tail h =>
          -- The letters after a `g` stand there before respelling too.
          obtain ⟨rfl, h₁⟩ := List.cons.inj h
          obtain ⟨t₁, rfl, h₂⟩ := respell_eq_cons h₁ (by decide)
          obtain ⟨t₂, rfl, h₃⟩ := respell_eq_cons h₂.symm (by decide)
          obtain ⟨t₃, rfl, h₄⟩ := respell_eq_cons h₃.symm (by decide)
          obtain ⟨t₄, rfl, -⟩ := respell_eq_cons h₄.symm (by decide)
          exact absurd rfl (notMisspelt t₄ rfl)
      · next h =>
          obtain ⟨-, rfl⟩ := List.cons.inj h
          exact ih
      · rfl
  | case3 => rfl

/-- A steady start of a respelt text is a start of the text itself. -/
theorem prefix_respell_iff {start : List Char} (steady : isSteady start = true) (cs : List Char) :
    start <+: respell cs ↔ start <+: cs := by
  induction start generalizing cs with
  | nil => simp
  | cons c rest ih =>
      simp only [isSteady, Bool.and_eq_true, Bool.or_eq_true, bne_iff_ne, Option.any_eq_true] at steady
      obtain ⟨own, steady⟩ := steady
      constructor
      · intro h
        fun_cases respell cs with
        | case1 tail =>
            -- The letter behind a `g` would be that of the right spelling.
            rw [respell, List.cons_prefix_cons] at h
            obtain ⟨rfl, behind⟩ := h
            obtain ⟨next, isNext, -, notR⟩ := own.resolve_left (not_not.2 rfl)
            obtain ⟨further, rfl⟩ := List.head?_eq_some_iff.1 isNext
            exact absurd (List.cons_prefix_cons.1 behind).1 notR
        | case2 d tail other =>
            rw [respell.eq_2 d tail other, List.cons_prefix_cons, ih steady] at h
            exact List.cons_prefix_cons.2 h
        | case3 => exact absurd (List.prefix_nil.1 h) (List.cons_ne_nil c rest)
      · rintro ⟨tail, rfl⟩
        have kept : respell (c :: (rest ++ tail)) = c :: respell (rest ++ tail) := by
          apply respell_cons
          rcases own with notG | ⟨next, isNext, notI, -⟩
          · exact Or.inl notG
          · obtain ⟨further, rfl⟩ := List.head?_eq_some_iff.1 isNext
            exact Or.inr (by simpa using notI)
        rw [List.cons_append, kept, List.cons_prefix_cons, ih steady]
        exact ⟨rfl, List.prefix_append rest tail⟩

/-- The right spelling starts a respelt text where either spelling starts the text itself. -/
theorem rightSpelling_prefix_respell_iff {start : List Char} (steady : isSteady start = true)
    (cs : List Char) :
    rightSpelling ++ start <+: respell cs ↔
      rightSpelling ++ start <+: cs ∨ misspelling ++ start <+: cs := by
  have behind : isSteady ('r' :: 'i' :: 'd' :: '-' :: start) = true := by
    simpa [isSteady] using steady
  constructor
  · intro h
    fun_cases respell cs with
    | case1 tail =>
        have further : start <+: respell tail := (List.prefix_append_right_inj rightSpelling).1 h
        rw [prefix_respell_iff steady] at further
        exact Or.inr ((List.prefix_append_right_inj misspelling).2 further)
    | case2 d tail other =>
        rw [respell.eq_2 d tail other] at h
        obtain ⟨rfl, further⟩ := List.cons_prefix_cons.1 h
        exact Or.inl (List.cons_prefix_cons.2 ⟨rfl, (prefix_respell_iff behind tail).1 further⟩)
    | case3 => simp [rightSpelling, respell] at h
  · rintro (⟨tail, rfl⟩ | ⟨tail, rfl⟩)
    · have kept : respell (rightSpelling ++ start ++ tail) =
          'g' :: respell ('r' :: 'i' :: 'd' :: '-' :: start ++ tail) :=
        respell_cons (Or.inr (by simp))
      rw [kept]
      exact List.cons_prefix_cons.2
        ⟨rfl, (prefix_respell_iff behind _).2 (List.prefix_append _ tail)⟩
    · refine (List.prefix_append_right_inj rightSpelling).2 ?_
      rw [prefix_respell_iff steady]
      exact List.prefix_append start tail

/-! ## Corrections of names -/

namespace CanonicalName

theorem correction?_eq_some_iff (name corrected : CanonicalName) :
    name.correction? = some corrected ↔
      misspelling <:+: name.text.toList ∧ corrected.text.toList = respell name.text.toList := by
  rw [← isMisspelt_iff]
  unfold correction?
  split
  · next misspelt =>
      rw [Option.some.injEq]
      constructor
      · rintro rfl
        exact ⟨misspelt, String.toList_ofList⟩
      · rintro ⟨-, respelt⟩
        apply ext_text
        show String.ofList (respell name.text.toList) = corrected.text
        rw [← respelt, String.ofList_toList]
  · next right => simp [right]

theorem exists_correction?_iff (name : CanonicalName) :
    (∃ corrected, name.correction? = some corrected) ↔ misspelling <:+: name.text.toList := by
  constructor
  · rintro ⟨corrected, correction⟩
    exact ((correction?_eq_some_iff name corrected).1 correction).1
  · intro misspelt
    refine ⟨⟨String.ofList (respell name.text.toList), ?_⟩, ?_⟩
    · rw [String.toList_ofList, isSpelled_respell]
      exact name.spelled
    · rw [correction?_eq_some_iff]
      exact ⟨misspelt, String.toList_ofList⟩

/-- A corrected name has no correction. -/
theorem correction?_of_correction? {name corrected : CanonicalName}
    (h : name.correction? = some corrected) : corrected.correction? = none := by
  have respelt := ((correction?_eq_some_iff name corrected).1 h).2
  by_contra further
  rw [← Ne, Option.ne_none_iff_exists', exists_correction?_iff, ← isMisspelt_iff, respelt,
    isMisspelt_respell] at further
  exact Bool.false_ne_true further

/-- What the correction of a name is. -/
structure IsCorrectionOf (corrected name : CanonicalName) : Prop where
  /-- Between the misspellings, of which there is one at least, it is the name. -/
  pieces : ∃ pieces : List (List Char), 2 ≤ pieces.length ∧
    (∀ piece ∈ pieces, ¬"gird-".toList <:+: piece) ∧
    name.text.toList = List.intercalate "gird-".toList pieces ∧
    corrected.text.toList = List.intercalate "grid-".toList pieces
  read : parse corrected.text = .ok corrected
  ne : corrected ≠ name
  length_eq : corrected.text.length = name.text.length
  /-- No misspelling is left, and none is new. -/
  right : ¬"gird-".toList <:+: corrected.text.toList
  final : corrected.correction? = none

theorem isCorrectionOf {name corrected : CanonicalName}
    (h : name.correction? = some corrected) : corrected.IsCorrectionOf name := by
  obtain ⟨misspelt, respelt⟩ := (correction?_eq_some_iff name corrected).1 h
  have right : ¬misspelling <:+: corrected.text.toList := by
    rw [← isMisspelt_iff, respelt, isMisspelt_respell]
    exact Bool.false_ne_true
  refine ⟨?_, parse_text corrected, ?_, ?_, right, correction?_of_correction? h⟩
  · obtain ⟨first, later, free, split, joined⟩ := exists_pieces name.text.toList
    refine ⟨first :: later, ?_, free, split, respelt.trans joined⟩
    cases later with
    | nil =>
        -- A single piece would be the name, misspelling and all.
        rw [List.intercalate_singleton] at split
        exact absurd (split ▸ misspelt) (free first List.mem_cons_self)
    | cons next rest => simp
  · rintro rfl
    exact right misspelt
  · rw [← String.length_toList, respelt, length_respell, String.length_toList]

/-- **A correction is a name, and final.** Every name is read as it is, and it has a correction exactly
if `gird-` stands in it. The correction has `grid-` for every `gird-` and is the name between them; it is
read as a name too, it is another one, of the same length, and it has no correction of its own. -/
theorem correction_is_final (name : CanonicalName) :
    parse name.text = .ok name ∧
      ((∃ corrected, name.correction? = some corrected) ↔ "gird-".toList <:+: name.text.toList) ∧
      ∀ corrected, name.correction? = some corrected → corrected.IsCorrectionOf name :=
  ⟨parse_text name, exists_correction?_iff name, fun _ correction => isCorrectionOf correction⟩

/-- A name with the misspelling at its start and inside. -/
def twiceMisspelt : CanonicalName := ⟨"gird-gap-gird-6", by decide⟩

/-- The correction of `twiceMisspelt`. -/
def twiceCorrected : CanonicalName := ⟨"grid-gap-grid-6", by decide⟩

/-- Both misspellings of a name are corrected at once. -/
theorem twiceCorrected_isCorrectionOf :
    twiceMisspelt.correction? = some twiceCorrected ∧
      twiceCorrected.IsCorrectionOf twiceMisspelt := by
  have correction : twiceMisspelt.correction? = some twiceCorrected := by decide
  obtain ⟨-, -, each⟩ := correction_is_final twiceMisspelt
  exact ⟨correction, each twiceCorrected correction⟩

end CanonicalName

end DesignTokens
