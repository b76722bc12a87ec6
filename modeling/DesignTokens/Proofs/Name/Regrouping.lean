import DesignTokens.Proofs.Collection.Leaves
import DesignTokens.Proofs.Name.Collected

/-!
# The words of paths

A name is made in two stages, and neither changes the words of letters and digits: kebab case puts
them in lower case (`words_kebabChars`), and the dots that are dropped before hyphens stand between
words (`words_closeDots`). So the final text of a path joins the words of its keys, key by key
(`paths_keep_words`), and two paths have one final text exactly if they have the same words up to case
(`canonicalText_joinPath_eq_iff`). It makes no difference how the keys are grouped.
-/

set_option autoImplicit false

namespace DesignTokens

/-! ## The words of each stage -/

/-- The words of a narrower kind stand within the words of a wider one. -/
theorem flatMap_words_words {narrow wide : Char → Bool}
    (within : ∀ c, wide c = false → narrow c = false) (cs : List Char) :
    (words wide cs).flatMap (words narrow) = words narrow cs := by
  obtain ⟨runs, isRuns⟩ := exists_maximalRuns wide cs
  rw [← isRuns.eq_words]
  induction isRuns with
  | gap other =>
      have none_left := (words_eq_nil_iff _).2 fun c hc => within c (other c hc)
      rw [none_left, List.flatMap_nil]
  | run other nonempty ofKind ends behind ih =>
      rw [List.flatMap_cons, ih, List.append_assoc,
        words_append_of_others fun c hc => within c (other c hc),
        words_append_of_ends fun c hc => within c (ends c hc)]

/-- Kebab case puts the words in lower case. -/
theorem words_kebabChars (cs : List Char) :
    words Char.isAlphanum (kebabChars cs) = (words Char.isAlphanum cs).map lowered := by
  have low (run : List Char) :
      words Char.isAlphanum (lowered run) = (words Char.isAlphanum run).map lowered :=
    words_map isAlphanum_toLower_eq run
  have within (c : Char) (other : isKept c = false) : c.isAlphanum = false :=
    (Bool.or_eq_false_iff.1 other).1
  calc words Char.isAlphanum (kebabChars cs)
      = (words isKept cs).flatMap fun run => words Char.isAlphanum (lowered run) := by
        rw [kebabChars_eq, hyphenated, words_intercalate isAlphanum_hyphen, List.flatMap_map]
    _ = ((words isKept cs).flatMap (words Char.isAlphanum)).map lowered := by
        simp only [low, List.map_flatMap]
    _ = (words Char.isAlphanum cs).map lowered := by rw [flatMap_words_words within]

theorem words_undotted (piece : List Char) :
    words Char.isAlphanum (undotted piece) = words Char.isAlphanum piece := by
  unfold undotted
  split
  · next dot =>
      obtain ⟨front, rfl⟩ := List.getLast?_eq_some_iff.1 dot
      rw [List.dropLast_concat, words_append_cons isAlphanum_dot, words_nil, List.append_nil]
  · rfl

theorem flatMap_words_closePieces (pieces : List (List Char)) :
    (closePieces pieces).flatMap (words Char.isAlphanum) =
      pieces.flatMap (words Char.isAlphanum) := by
  fun_induction closePieces pieces with
  | case1 => rfl
  | case2 last => rfl
  | case3 piece next rest ih => rw [List.flatMap_cons, List.flatMap_cons, ih, words_undotted]

/-- The dots before hyphens are no part of a word. -/
theorem words_closeDots (cs : List Char) :
    words Char.isAlphanum (closeDots cs) = words Char.isAlphanum cs := by
  have noHyphen : ∀ piece ∈ cs.splitOn '-', '-' ∉ piece := by
    intro piece member hyphen
    have same : (fun c : Char => !(c != '-')) = (· == '-') := funext fun c => Bool.not_not (c == '-')
    rw [List.splitOn, ← same] at member
    exact absurd (keep_of_mem_splitOnP member '-' hyphen) (by decide)
  calc words Char.isAlphanum (closeDots cs)
      = words Char.isAlphanum (List.intercalate ['-'] (closePieces (cs.splitOn '-'))) := by
        rw [← closeDots_intercalate noHyphen, List.intercalate_splitOn]
    _ = words Char.isAlphanum (List.intercalate ['-'] (cs.splitOn '-')) := by
        rw [words_intercalate isAlphanum_hyphen, flatMap_words_closePieces,
          words_intercalate isAlphanum_hyphen]
    _ = words Char.isAlphanum cs := by rw [List.intercalate_splitOn]

/-- The words of a collected name are those of the keys, in lower case. -/
theorem words_joinPath (segments : List String) :
    words Char.isAlphanum (joinPath segments).toList = (pathWords segments).map lowered := by
  rw [joinPath, String.toList_ofList, words_closeDots, words_kebabChars,
    words_joined Char.isAlphanum isAlphanum_hyphen]
  rfl

/-! ## Paths with the same words -/

theorem pathWords_append (front back : List String) :
    pathWords (front ++ back) = pathWords front ++ pathWords back := by
  rw [pathWords, List.flatMap_append]
  rfl

/-- Two paths have one final text exactly if they have the same words up to case. -/
theorem canonicalText_joinPath_eq_iff (segments others : List String) :
    canonicalText (joinPath others) = canonicalText (joinPath segments) ↔
      (pathWords others).map lowered = (pathWords segments).map lowered := by
  have wordsOf (keys : List String) :
      words Char.isAlphanum (hyphenated (pathWords keys)) = (pathWords keys).map lowered := by
    have joined := words_joined Char.isAlphanum isAlphanum_hyphen keys
    rw [show pathWords keys = pathRuns Char.isAlphanum keys from rfl, ← joined]
    exact words_hyphenated_words isAlphanum_hyphen (fun c => isAlphanum_toLower) _
  rw [canonicalText_joinPath, canonicalText_joinPath, String.ofList_inj]
  constructor
  · intro same
    rw [← wordsOf, same, wordsOf]
  · intro same
    rw [hyphenated, same, hyphenated]

/-- Further keys make no difference between them. -/
theorem canonicalText_joinPath_append {segments others : List String}
    (same : canonicalText (joinPath others) = canonicalText (joinPath segments))
    (path : List String) :
    canonicalText (joinPath (others ++ path)) = canonicalText (joinPath (segments ++ path)) := by
  have sameWords := (canonicalText_joinPath_eq_iff segments others).1 same
  apply (canonicalText_joinPath_eq_iff _ _).2
  rw [pathWords_append, pathWords_append, List.map_append, List.map_append, sameWords]

theorem CanonicalName.derive?_congr {first second : String}
    (same : canonicalText first = canonicalText second) : derive? first = derive? second := by
  cases derived : derive? second with
  | none =>
      rw [derive?_eq_none_iff] at derived ⊢
      rw [same, derived]
  | some name =>
      cases found : derive? first with
      | none =>
          rw [derive?_eq_none_iff, same, ← derive?_eq_none_iff, derived] at found
          exact absurd found (by simp)
      | some other =>
          rw [ext_text ((derive?_text found).trans (same.trans (derive?_text derived).symm))]

/-- Nothing is left of a path exactly if no key has a letter or digit. -/
theorem derive?_joinPath_eq_none_iff (segments : List String) :
    CanonicalName.derive? (joinPath segments) = none ↔
      ∀ segment ∈ segments, ∀ c ∈ segment.toList, c.isAlphanum = false := by
  have joined := words_joined Char.isAlphanum isAlphanum_hyphen segments
  have empty : hyphenated (pathWords segments) = [] ↔ pathWords segments = [] := by
    rw [show pathWords segments = pathRuns Char.isAlphanum segments from rfl, ← joined,
      hyphenated_words_eq_nil_iff isAlphanum_hyphen fun c => isAlphanum_toLower, words_eq_nil_iff]
  rw [CanonicalName.derive?_eq_none_iff, canonicalText_joinPath, ← String.toList_eq_nil_iff,
    String.toList_ofList, empty, pathWords, List.flatMap_eq_nil_iff]
  simp only [words_eq_nil_iff]

/-! ## Keys in groups -/

/-- How one key can stand for several: it is their collected name, or they are written with a
separator between them; a single key is written as it is. -/
inductive Flattens (group : List String) : String → Prop where
  | collected : Flattens group (joinPath group)
  | separated {separator : String} (nonempty : separator ≠ "")
      (gap : ∀ c ∈ separator.toList, c.isAlphanum = false) :
      Flattens group (String.intercalate separator group)

/-- The words of texts with a separator of other characters between them. -/
theorem words_intercalate_of_others {kind : Char → Bool} {separator : List Char}
    (nonempty : separator ≠ []) (other : ∀ c ∈ separator, kind c = false)
    (texts : List (List Char)) :
    words kind (List.intercalate separator texts) = texts.flatMap (words kind) := by
  obtain ⟨first, further, rfl⟩ := List.exists_cons_of_ne_nil nonempty
  obtain ⟨gap, gaps⟩ := List.forall_mem_cons.1 other
  induction texts with
  | nil => rfl
  | cons text rest ih =>
      cases rest with
      | nil => simp
      | cons next rest =>
          rw [List.intercalate_cons_cons, List.append_assoc, List.cons_append,
            words_append_cons gap, words_append_of_others gaps, ih, ← List.flatMap_cons]

/-- A key that stands for a group of keys has their words. -/
theorem Flattens.words_eq {group : List String} {key : String} (h : Flattens group key) :
    (words Char.isAlphanum key.toList).map lowered = (pathWords group).map lowered := by
  cases h with
  | collected =>
      have again : lowered ∘ lowered = lowered := by
        funext word
        rw [Function.comp_apply, lowered, lowered, List.map_map]
        exact List.map_congr_left fun c _ => toLower_toLower c
      rw [words_joinPath, List.map_map, again]
  | @separated separator nonempty gap =>
      rw [String.toList_intercalate, words_intercalate_of_others _ gap, List.flatMap_map, pathWords]
      exact mt String.toList_eq_nil_iff.1 nonempty

/-- Keys that stand for groups have the words of all groups, in order. -/
theorem pathWords_of_flattens {groups : List (List String)} {keys : List String}
    (flat : List.Forall₂ Flattens groups keys) :
    (pathWords keys).map lowered = (pathWords groups.flatten).map lowered := by
  induction flat with
  | nil => rfl
  | @cons group key groups keys own _ ih =>
      calc (pathWords (key :: keys)).map lowered
          = (words Char.isAlphanum key.toList).map lowered ++ (pathWords keys).map lowered := by
            rw [pathWords, List.flatMap_cons, List.map_append]
            rfl
        _ = (pathWords group).map lowered ++ (pathWords groups.flatten).map lowered := by
            rw [own.words_eq, ih]
        _ = (pathWords (group :: groups).flatten).map lowered := by
            rw [List.flatten_cons, pathWords_append, List.map_append]

namespace Tree

/-- The final names below a place depend on the words of its path only. -/
theorem map_name?_leavesAt {segments others : List String}
    (same : canonicalText (joinPath others) = canonicalText (joinPath segments)) (tree : Json) :
    (leavesAt others tree).map Leaf.name? = (leavesAt segments tree).map Leaf.name? := by
  have below (start : List String) :
      leavesAt start tree = (leavesAt [] tree).map (Leaf.under start) := by
    simpa using leavesAt_append start [] tree
  rw [below others, below segments, List.map_map, List.map_map]
  apply List.map_congr_left
  intro leaf _
  rw [Function.comp_apply, Function.comp_apply, Leaf.name?, Leaf.name?]
  exact CanonicalName.derive?_congr (canonicalText_joinPath_append same leaf.path)

end Tree

/-! ## Names of paths -/

/-- What becomes of the words of a path when it is named. -/
structure KeepsWords (segments : List String) (runs : List (List Char)) : Prop where
  /-- Kebab case of the joined keys has the words of the keys, in lower case. -/
  kebab : MaximalRuns Char.isAlphanum
    (kebabChars (List.intercalate ['-'] ((segments.filter (!·.isEmpty)).map String.toList)))
    (runs.map (List.map Char.toLower))
  /-- So has the collected name. -/
  collected : MaximalRuns Char.isAlphanum (joinPath segments).toList
    (runs.map (List.map Char.toLower))
  canonicalText_eq : canonicalText (joinPath segments) =
    String.ofList (List.intercalate ['-'] (runs.map (List.map Char.toLower)))
  derive?_eq_none_iff : CanonicalName.derive? (joinPath segments) = none ↔
    ∀ segment ∈ segments, ∀ c ∈ segment.toList, c.isAlphanum = false
  /-- Keys in groups, with one key for each group, have the same final text. -/
  regrouped : ∀ groups keys, groups.flatten = segments → List.Forall₂ Flattens groups keys →
    canonicalText (joinPath keys) = canonicalText (joinPath segments)
  /-- And so have all leaves of a tree below them. -/
  below : ∀ groups keys, groups.flatten = segments → List.Forall₂ Flattens groups keys →
    ∀ tree, (Tree.leavesAt keys tree).map Tree.Leaf.name? =
      (Tree.leavesAt segments tree).map Tree.Leaf.name?

/-- **Naming a path keeps its words.** The final text of a path joins the maximal runs of letters and
digits of its keys, key by key and in lower case, by hyphens; neither kebab case nor closing the dots
merges, drops or adds one. There is no name exactly if no key has a letter or digit. How the keys are
grouped makes no difference to the text, nor to the names of the leaves below. -/
theorem paths_keep_words (segments : List String) :
    ∃ runs : List (List (List Char)),
      List.Forall₂ (fun segment own => MaximalRuns Char.isAlphanum segment.toList own)
        segments runs ∧
      KeepsWords segments runs.flatten := by
  refine ⟨_, forall₂_maximalRuns Char.isAlphanum segments, ?_⟩
  rw [← List.flatMap_def]
  have regrouped : ∀ groups keys, groups.flatten = segments → List.Forall₂ Flattens groups keys →
      canonicalText (joinPath keys) = canonicalText (joinPath segments) := by
    rintro groups keys rfl flat
    exact (canonicalText_joinPath_eq_iff _ _).2 (pathWords_of_flattens flat)
  refine ⟨?_, ?_, canonicalText_joinPath segments, derive?_joinPath_eq_none_iff segments, regrouped,
    ?_⟩
  · rw [maximalRuns_iff, words_kebabChars, words_joined Char.isAlphanum isAlphanum_hyphen]
    rfl
  · rw [maximalRuns_iff, words_joinPath]
    rfl
  · intro groups keys split flat
    exact Tree.map_name?_leavesAt (regrouped groups keys split flat)

end DesignTokens
