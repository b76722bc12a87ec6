import DesignTokens.Proofs.Merge.Originals
import DesignTokens.Proofs.Name.Respelling
import DesignTokens.Proofs.Pattern.Languages
import DesignTokens.Proofs.Resolution.Normalization

/-!
# The built-in rules and misspelt names

Every built-in rule has a family of names with one start (`contains_startingWith_iff`), the same as the
pattern for that start has when it is read (`exists_family_of_start`). A start can be found in the
correction of a name as in the name itself, but for the grid columns, and these are listed in both
spellings (`isPixelName_correction`). So the built-in rules resolve a value alike under a name and under
its correction, and a correction that is added to a merge has the value that it would have had if it had
been given (`builtIn_resolves_spellings_alike`).
-/

set_option autoImplicit false

namespace DesignTokens

/-! ## Families by their starts -/

/-- The names of the family of a start are those that start so. -/
theorem Family.contains_startingWith_iff (start name : String) :
    (Family.startingWith start).contains name = true ↔ start.toList <+: name.toList := by
  rw [contains, startingWith, Pattern.isIn_from_start_iff (Pattern.takes_literal start.toList)]
  exact exists_eq_left

/-- The pattern of a start as it is read: one character after the other is put behind the start of the
text. -/
def startPattern (start : List Char) : Pattern :=
  start.foldl (fun front c => .sequence front (.one (.char c))) (.assertion .textStart)

/-- Sequences that are nested to the left match as the ones that are nested to the right. -/
theorem matches_foldl_iff (front : Pattern) (cs : List Char) (start stop : Spot) :
    (cs.foldl (fun front c => Pattern.sequence front (.one (.char c))) front).Matches start stop ↔
      (Pattern.sequence front (Pattern.literal cs)).Matches start stop := by
  induction cs generalizing front with
  | nil => simp [Pattern.Matches, Pattern.literal]
  | cons c rest ih =>
      rw [List.foldl_cons, ih]
      simp only [Pattern.Matches, Pattern.literal]
      constructor
      · rintro ⟨middle, ⟨first, isFront, isC⟩, isRest⟩
        exact ⟨first, isFront, middle, isC, isRest⟩
      · rintro ⟨first, isFront, middle, isC, isRest⟩
        exact ⟨middle, ⟨first, isFront, isC⟩, isRest⟩

theorem isIn_startPattern (start name : String) :
    (startPattern start.toList).isIn name = (Family.startingWith start).contains name := by
  rw [Bool.eq_iff_iff, Family.contains, Pattern.isIn_iff, Pattern.isIn_iff]
  simp only [startPattern, matches_foldl_iff, Family.startingWith]

namespace RuleTable

/-! ## The built-in table -/

/-- The starts of all built-in families. -/
def builtInStarts : List String := "lineheights-" :: pixelStarts

/-- The built-in families are those of the patterns as they are written. -/
theorem exists_family_of_start {start : String} (isBuiltIn : start ∈ builtInStarts) :
    ∃ family, Family.parse ("^" ++ start) = .ok family ∧
      ∀ name, family.contains name = (Family.startingWith start).contains name := by
  have readAll : ∀ start ∈ builtInStarts,
      Pattern.parse? ("^" ++ start) = some (startPattern start.toList) := by decide
  refine ⟨⟨"^" ++ start, startPattern start.toList⟩, ?_, fun name => isIn_startPattern start name⟩
  rw [Family.parse, readAll start isBuiltIn]

/-- Whether a built-in rule makes the numbers of a name pixel lengths. -/
def isPixelName (name : String) : Bool :=
  pixelStarts.any fun start => (Family.startingWith start).contains name

/-- What a search gives if it gives the same wherever it ends. -/
theorem map_find?_const {α β : Type} (p : α → Bool) (b : β) (l : List α) :
    ((l.find? p).map fun _ => b) = if l.any p then some b else none := by
  induction l with
  | nil => rfl
  | cons a rest ih =>
      rw [List.find?_cons, List.any_cons]
      cases p a with
      | true => rfl
      | false => simpa using ih

/-- The built-in unit is the same for all names that have one. -/
theorem injectUnit_builtIn (name : String) (value : Json) :
    builtIn.injectUnit name value = (numericText? value).bind fun number =>
      if isPixelName name then some (number ++ Rule.pixel) else none := by
  have units (number : String) :
      ((builtIn.units.find? fun rule => rule.family.contains name).map fun rule =>
        number ++ rule.unit) = if isPixelName name then some (number ++ Rule.pixel) else none := by
    rw [builtIn, List.find?_map, Option.map_map]
    exact map_find?_const (fun start => (Family.startingWith start).contains name)
      (number ++ Rule.pixel) pixelStarts
  simp only [injectUnit, units]

/-- The built-in keyword is that of one family. -/
theorem substituteKeyword_builtIn (name : String) (value : Json) :
    builtIn.substituteKeyword name value = value.cssText?.bind fun text =>
      if (Family.startingWith "lineheights-").contains name && "AUTO" == Text.upper text
      then some "normal" else none := by
  have keyword (text : String) :
      (builtIn.keywords.findSome? fun rule => KeywordRule.apply? rule name text) =
        if (Family.startingWith "lineheights-").contains name && "AUTO" == text
        then some "normal" else none := by
    rw [builtIn, List.findSome?_singleton, KeywordRule.apply?]
  simp only [substituteKeyword, keyword]

/-! ## Misspelt names -/

/-- A correction has pixel lengths exactly if the misspelt name has them: both spellings of the grid
columns are listed. -/
theorem isPixelName_correction {name corrected : CanonicalName}
    (correction : name.correction? = some corrected) :
    isPixelName corrected.text = isPixelName name.text := by
  have respelt := ((name.correction?_eq_some_iff corrected).1 correction).2
  have steady (start : List Char) (h : isSteady start = true) :
      start <+: corrected.text.toList ↔ start <+: name.text.toList := by
    rw [respelt, prefix_respell_iff h]
  have columns : "grid-columns-".toList <+: corrected.text.toList ↔
      "grid-columns-".toList <+: name.text.toList ∨ "gird-columns-".toList <+: name.text.toList := by
    have steadyRest : isSteady "columns-".toList = true := by decide
    have either := rightSpelling_prefix_respell_iff steadyRest name.text.toList
    rw [← respelt] at either
    exact either
  have none_left : ¬"gird-columns-".toList <+: corrected.text.toList := by
    intro start
    have misspelt : misspelling <:+: corrected.text.toList :=
      ((List.prefix_append misspelling "columns-".toList).trans start).isInfix
    rw [← CanonicalName.exists_correction?_iff, CanonicalName.correction?_of_correction? correction]
      at misspelt
    simp at misspelt
  rw [Bool.eq_iff_iff]
  simp only [isPixelName, pixelStarts, List.any_cons, List.any_nil, Bool.or_eq_true,
    Family.contains_startingWith_iff, steady "width-".toList (by decide),
    steady "breakpoint".toList (by decide), steady "breakpoints-".toList (by decide), columns,
    none_left, Bool.false_eq_true, or_false]

theorem contains_lineheights_correction {name corrected : CanonicalName}
    (correction : name.correction? = some corrected) :
    (Family.startingWith "lineheights-").contains corrected.text =
      (Family.startingWith "lineheights-").contains name.text := by
  have steady : isSteady "lineheights-".toList = true := by decide
  rw [Bool.eq_iff_iff, Family.contains_startingWith_iff, Family.contains_startingWith_iff,
    ((name.correction?_eq_some_iff corrected).1 correction).2, prefix_respell_iff steady]

/-- A value is resolved alike under names for which the rules do the same. -/
theorem resolve_congr {table : RuleTable} {first second : String} {value : Json}
    (keyword : table.substituteKeyword first value = table.substituteKeyword second value)
    (unit : table.injectUnit first value = table.injectUnit second value) :
    table.resolve first value = table.resolve second value := by
  rw [resolve, resolve, keyword, unit]

section Merged

open Merge

/-- The folded token of a given name is resolved from a collected token of that name. -/
theorem exists_token_of_given (table : RuleTable) {documents : List RawTokens}
    {name : CanonicalName} (given : name ∈ givenNames (documents.map table.normalizeAll)) :
    ∃ document ∈ documents, ∃ token ∈ document.entries,
      CanonicalName.derive? token.1 = some name ∧
      (foldedTokens (documents.map table.normalizeAll)).get? name =
        some (table.resolve name.text token.2) := by
  obtain ⟨before, normal, after, resolved, split, value, -, folded⟩ :=
    exists_last_document _ given
  have member : normal ∈ documents.map table.normalizeAll := by rw [split]; simp
  obtain ⟨document, isDocument, rfl⟩ := List.mem_map.1 member
  rw [get?_normalizeAll, Option.map_eq_some_iff] at value
  obtain ⟨token, isLast, rfl⟩ := value
  rw [List.findRev?_eq_find?_reverse] at isLast
  refine ⟨document, isDocument, token, List.mem_reverse.1 (List.mem_of_find?_eq_some isLast), ?_,
    folded⟩
  simpa [becomes] using List.find?_some isLast

end Merged

section Spellings

variable {name corrected : CanonicalName} (correction : name.correction? = some corrected)
include correction

theorem substituteKeyword_builtIn_correction (value : Json) :
    builtIn.substituteKeyword corrected.text value = builtIn.substituteKeyword name.text value := by
  rw [substituteKeyword_builtIn, substituteKeyword_builtIn, contains_lineheights_correction correction]

theorem injectUnit_builtIn_correction (value : Json) :
    builtIn.injectUnit corrected.text value = builtIn.injectUnit name.text value := by
  rw [injectUnit_builtIn, injectUnit_builtIn, isPixelName_correction correction]

theorem resolve_builtIn_correction (value : Json) :
    builtIn.resolve corrected.text value = builtIn.resolve name.text value :=
  resolve_congr (substituteKeyword_builtIn_correction correction value)
    (injectUnit_builtIn_correction correction value)

end Spellings

/-- **The built-in rules treat both spellings alike.** Under a name and under its correction every value
has the same keyword, the same unit, and so the same resolved value with the same origin. So a correction
that is added, since documents give the name and not the correction, has the value that the built-in
rules give under the correction itself to the token whose value it takes over. -/
theorem builtIn_resolves_spellings_alike {name corrected : CanonicalName}
    (correction : name.correction? = some corrected) :
    (∀ value : Json,
      builtIn.substituteKeyword corrected.text value = builtIn.substituteKeyword name.text value ∧
      builtIn.injectUnit corrected.text value = builtIn.injectUnit name.text value ∧
      builtIn.resolve corrected.text value = builtIn.resolve name.text value) ∧
    ∀ documents : List RawTokens,
      name ∈ Merge.givenNames (documents.map builtIn.normalizeAll) →
      corrected ∉ Merge.givenNames (documents.map builtIn.normalizeAll) →
      ∃ original, ∃ document ∈ documents, ∃ token ∈ document.entries,
        (Merge.originals (documents.map builtIn.normalizeAll) corrected).getLast? = some original ∧
        CanonicalName.derive? token.1 = some original ∧
        (merge (documents.map builtIn.normalizeAll)).tokens.get? original =
          some (builtIn.resolve original.text token.2).value ∧
        (merge (documents.map builtIn.normalizeAll)).tokens.get? corrected =
          some (builtIn.resolve corrected.text token.2).value := by
  constructor
  · intro value
    exact ⟨substituteKeyword_builtIn_correction correction value,
      injectUnit_builtIn_correction correction value, resolve_builtIn_correction correction value⟩
  · intro documents given new
    have some_original : Merge.originals (documents.map builtIn.normalizeAll) corrected ≠ [] :=
      List.ne_nil_of_mem ((Merge.mem_originals _ name corrected).2 ⟨given, correction⟩)
    obtain ⟨original, isLast⟩ := Option.ne_none_iff_exists'.1
      (mt List.getLast?_eq_none_iff.1 some_original)
    have isOriginal := (Merge.mem_originals _ original corrected).1 (List.mem_of_getLast? isLast)
    obtain ⟨document, isDocument, token, isToken, named, folded⟩ :=
      exists_token_of_given builtIn isOriginal.1
    have unknown : (Merge.foldedTokens (documents.map builtIn.normalizeAll)).get? corrected =
        none := by
      rw [OrderedMap.get?_eq_none_iff, ← Merge.mem_givenNames]
      exact new
    refine ⟨original, document, isDocument, token, isToken, isLast, named, ?_, ?_⟩
    · rw [Merge.get?_merge, Merge.source?, folded]
      rfl
    · rw [Merge.get?_merge, Merge.source?, unknown, isLast, Option.none_or, Option.bind_some, folded,
        resolve_builtIn_correction isOriginal.2]
      rfl

/-- A misspelt name of a built-in family. -/
def girdColumns : CanonicalName := ⟨"gird-columns-6", by decide⟩

/-- Its correction. -/
def gridColumns : CanonicalName := ⟨"grid-columns-6", by decide⟩

/-- A document that gives the misspelt name. -/
def misspeltColumns : RawTokens := .ofList [("gird.columns.6", .string "6")]

/-- The correction of the misspelt name has the value that it would have had if it had been given. -/
theorem misspeltColumns_resolved_alike :
    girdColumns.correction? = some gridColumns ∧
      girdColumns ∈ Merge.givenNames ([misspeltColumns].map builtIn.normalizeAll) ∧
      gridColumns ∉ Merge.givenNames ([misspeltColumns].map builtIn.normalizeAll) ∧
      (merge ([misspeltColumns].map builtIn.normalizeAll)).tokens.get? gridColumns =
        some (builtIn.resolve gridColumns.text (.string "6")).value := by
  have correction : girdColumns.correction? = some gridColumns := by decide
  have given : girdColumns ∈ Merge.givenNames ([misspeltColumns].map builtIn.normalizeAll) := by
    decide
  have new : gridColumns ∉ Merge.givenNames ([misspeltColumns].map builtIn.normalizeAll) := by
    decide
  obtain ⟨-, merged⟩ := builtIn_resolves_spellings_alike correction
  obtain ⟨original, document, isDocument, token, isToken, -, -, -, value⟩ :=
    merged [misspeltColumns] given new
  refine ⟨correction, given, new, ?_⟩
  obtain rfl := List.mem_singleton.1 isDocument
  obtain rfl : token = ("gird.columns.6", .string "6") := List.mem_singleton.1 isToken
  exact value

end RuleTable

end DesignTokens
