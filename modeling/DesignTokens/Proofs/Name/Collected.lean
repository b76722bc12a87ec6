import DesignTokens.Proofs.Name.Runs
import Mathlib.Data.List.Forall2

/-!
# The form of collected names

Collecting joins the runs of letters, digits and dots of the keys by hyphens; every run that a hyphen
follows loses one dot at its end (`toList_joinPath`). The dots are taken out after the hyphens have
been made single, and only once. So a run that is a dot leaves a hyphen without a run before it, and
of two dots at the end of a run one stays before the hyphen. These are the only ways in which a
collected name is not in the form in which collecting it again changes nothing
(`collected_names_settled_iff`, `collected_names_not_settled`).
-/

set_option autoImplicit false

namespace DesignTokens

/-! ## Pieces between hyphens -/

section Pieces

/-- A piece without the dot at its end, if there is one. -/
def undotted (piece : List Char) : List Char :=
  if piece.getLast? = some '.' then piece.dropLast else piece

/-- Every piece that a hyphen follows, without the dot at its end. -/
def closePieces : List (List Char) → List (List Char)
  | [] => []
  | [last] => [last]
  | piece :: next :: rest => undotted piece :: closePieces (next :: rest)

theorem closeDots_cons {c : Char} {rest : List Char}
    (other : ∀ tail, c = '.' → rest ≠ '-' :: tail) : closeDots (c :: rest) = c :: closeDots rest :=
  closeDots.eq_2 c rest fun tail dot hyphen => other tail dot hyphen

/-- Without hyphens no dot is dropped. -/
theorem closeDots_of_noHyphen {piece : List Char} (noHyphen : '-' ∉ piece) :
    closeDots piece = piece := by
  induction piece with
  | nil => rfl
  | cons c rest ih =>
      have restHyphen : '-' ∉ rest := fun h => noHyphen (List.mem_cons_of_mem c h)
      rw [closeDots_cons, ih restHyphen]
      rintro tail - rfl
      exact restHyphen List.mem_cons_self

/-- Before the first hyphen one dot is dropped. -/
theorem closeDots_append_hyphen {piece : List Char} (noHyphen : '-' ∉ piece) (rest : List Char) :
    closeDots (piece ++ '-' :: rest) = undotted piece ++ '-' :: closeDots rest := by
  induction piece with
  | nil => exact closeDots_cons fun _ dot => absurd dot (by decide)
  | cons c piece ih =>
      have pieceHyphen : '-' ∉ piece := fun h => noHyphen (List.mem_cons_of_mem c h)
      cases piece with
      | nil =>
          by_cases dot : c = '.'
          · subst dot
            rfl
          · rw [List.singleton_append, closeDots_cons fun _ isDot => absurd isDot dot]
            simpa [undotted, dot] using ih pieceHyphen
      | cons d tail =>
          have inner : closeDots (c :: (d :: tail ++ '-' :: rest)) =
              c :: closeDots (d :: tail ++ '-' :: rest) := by
            apply closeDots_cons
            rintro _ - same
            exact pieceHyphen ((List.cons.inj same).1 ▸ List.mem_cons_self)
          have own : undotted (c :: d :: tail) = c :: undotted (d :: tail) := by
            simp only [undotted, List.getLast?_cons_cons, List.dropLast_cons_cons]
            split <;> rfl
          rw [List.cons_append, inner, ih pieceHyphen, own, List.cons_append]

/-- Dropping dots changes the pieces between the hyphens one by one. -/
theorem closeDots_intercalate {pieces : List (List Char)}
    (noHyphen : ∀ piece ∈ pieces, '-' ∉ piece) :
    closeDots (List.intercalate ['-'] pieces) = List.intercalate ['-'] (closePieces pieces) := by
  induction pieces with
  | nil => rfl
  | cons piece rest ih =>
      obtain ⟨own, others⟩ := List.forall_mem_cons.1 noHyphen
      cases rest with
      | nil => simpa [closePieces] using closeDots_of_noHyphen own
      | cons next rest =>
          obtain ⟨first, later, closed⟩ :
              ∃ first later, closePieces (next :: rest) = first :: later := by
            cases rest <;> exact ⟨_, _, rfl⟩
          rw [closePieces, closed, List.intercalate_cons_cons, List.intercalate_cons_cons, ← closed,
            ← ih others, List.append_assoc, List.singleton_append, closeDots_append_hyphen own,
            List.append_assoc, List.singleton_append]

theorem length_closePieces (pieces : List (List Char)) :
    (closePieces pieces).length = pieces.length := by
  fun_induction closePieces pieces <;> simp_all

theorem getLast?_closePieces (pieces : List (List Char)) :
    (closePieces pieces).getLast? = pieces.getLast? := by
  fun_induction closePieces pieces with
  | case1 => rfl
  | case2 last => rfl
  | case3 piece next rest ih =>
      rw [List.getLast?_cons_cons, ← ih]
      cases rest <;> rfl

theorem tail_closePieces (pieces : List (List Char)) :
    (closePieces pieces).tail = closePieces pieces.tail := by
  fun_cases closePieces pieces <;> rfl

theorem dropLast_closePieces (pieces : List (List Char)) :
    (closePieces pieces).dropLast = pieces.dropLast.map undotted := by
  fun_induction closePieces pieces with
  | case1 => rfl
  | case2 last => rfl
  | case3 piece next rest ih =>
      rw [List.dropLast_cons_cons, List.map_cons, ← ih]
      cases rest <;> rfl

theorem head?_closePieces {pieces : List (List Char)} (several : 2 ≤ pieces.length) :
    (closePieces pieces).head? = pieces.head?.map undotted := by
  fun_cases closePieces pieces with
  | case1 => rfl
  | case2 last => simp at several
  | case3 piece next rest => rfl

theorem undotted_subset (piece : List Char) : undotted piece ⊆ piece := by
  unfold undotted
  split
  · exact (List.dropLast_sublist piece).subset
  · exact List.Subset.refl piece

theorem exists_of_mem_closePieces {pieces : List (List Char)} {closed : List Char}
    (h : closed ∈ closePieces pieces) : ∃ piece ∈ pieces, closed ⊆ piece := by
  fun_induction closePieces pieces with
  | case1 => exact absurd h (by simp)
  | case2 last => exact ⟨last, List.mem_cons_self, (List.mem_singleton.1 h) ▸ List.Subset.refl _⟩
  | case3 piece next rest ih =>
      rcases List.mem_cons.1 h with rfl | h
      · exact ⟨piece, List.mem_cons_self, undotted_subset piece⟩
      · obtain ⟨other, member, subset⟩ := ih h
        exact ⟨other, List.mem_cons_of_mem piece member, subset⟩

theorem undotted_eq_nil_iff (piece : List Char) :
    undotted piece = [] ↔ piece = [] ∨ piece = ['.'] := by
  unfold undotted
  split
  · next dot =>
      obtain ⟨front, rfl⟩ := List.getLast?_eq_some_iff.1 dot
      rw [List.dropLast_concat]
      cases front <;> simp
  · next other =>
      constructor
      · exact Or.inl
      · rintro (rfl | rfl)
        · rfl
        · exact absurd rfl other

theorem getLast?_undotted_iff (piece : List Char) :
    (undotted piece).getLast? = some '.' ↔ ['.', '.'] <:+ piece := by
  unfold undotted
  split
  · next dot =>
      obtain ⟨front, rfl⟩ := List.getLast?_eq_some_iff.1 dot
      rw [List.dropLast_concat, List.getLast?_eq_some_iff]
      constructor
      · rintro ⟨rest, rfl⟩
        exact ⟨rest, by simp⟩
      · rintro ⟨rest, same⟩
        have parts : rest ++ ['.'] ++ ['.'] = front ++ ['.'] := by simpa using same
        exact ⟨rest, (List.append_cancel_right parts).symm⟩
  · next other =>
      constructor
      · exact fun dot => absurd dot other
      · rintro ⟨rest, rfl⟩
        exact absurd (by simp) other

theorem undotted_eq_self_iff (piece : List Char) :
    undotted piece = piece ↔ piece.getLast? ≠ some '.' := by
  unfold undotted
  split
  · next dot =>
      obtain ⟨front, rfl⟩ := List.getLast?_eq_some_iff.1 dot
      simp
  · next other => simpa using other

theorem closePieces_eq_self_iff (pieces : List (List Char)) :
    closePieces pieces = pieces ↔ ∀ piece ∈ pieces.dropLast, piece.getLast? ≠ some '.' := by
  fun_induction closePieces pieces with
  | case1 => simp
  | case2 last => simp
  | case3 piece next rest ih =>
      rw [List.cons.injEq, undotted_eq_self_iff, ih, List.dropLast_cons_cons, List.forall_mem_cons]

end Pieces

/-! ## Hyphens of joined pieces -/

section Hyphens

variable {a : Char}

theorem hyphen_prefix_iff (cs : List Char) : ['-'] <+: cs ↔ cs.head? = some '-' := by
  cases cs with
  | nil => simp
  | cons c rest =>
      rw [List.cons_prefix_cons, List.head?_cons, Option.some.injEq, and_iff_left List.nil_prefix]
      exact eq_comm

theorem pair_infix_hyphen_cons_iff (rest : List Char) :
    [a, '-'] <:+: '-' :: rest ↔ (a = '-' ∧ rest.head? = some '-') ∨ [a, '-'] <:+: rest := by
  rw [List.infix_cons_iff, List.cons_prefix_cons, hyphen_prefix_iff]

/-- What stands before a hyphen, stands at the end of the piece before it or behind that piece. -/
theorem pair_infix_append_iff {piece : List Char} (noHyphen : '-' ∉ piece) (rest : List Char) :
    [a, '-'] <:+: piece ++ '-' :: rest ↔
      piece.getLast? = some a ∨ [a, '-'] <:+: '-' :: rest := by
  induction piece with
  | nil => simp
  | cons c piece ih =>
      have pieceHyphen : '-' ∉ piece := fun h => noHyphen (List.mem_cons_of_mem c h)
      rw [List.cons_append, List.infix_cons_iff, ih pieceHyphen, List.cons_prefix_cons,
        hyphen_prefix_iff]
      cases piece with
      | nil => simp [eq_comm (a := c)]
      | cons d tail =>
          have notFirst : d ≠ '-' := fun same => pieceHyphen (same ▸ List.mem_cons_self)
          simp [notFirst]

theorem not_pair_infix_of_noHyphen {piece : List Char} (noHyphen : '-' ∉ piece) :
    ¬ [a, '-'] <:+: piece :=
  fun h => noHyphen (h.subset (by simp))

variable {pieces : List (List Char)}

theorem head?_intercalate_iff (noHyphen : ∀ piece ∈ pieces, '-' ∉ piece) :
    (List.intercalate ['-'] pieces).head? = some '-' ↔
      2 ≤ pieces.length ∧ pieces.head? = some [] := by
  cases pieces with
  | nil => simp
  | cons piece rest =>
      have own := (List.forall_mem_cons.1 noHyphen).1
      have notFirst : piece.head? ≠ some '-' := fun first => own (List.mem_of_head? first)
      cases rest with
      | nil => simp [notFirst]
      | cons next rest =>
          rw [List.intercalate_cons_cons, List.append_assoc, List.head?_append]
          cases piece with
          | nil => simp
          | cons c tail => simpa using notFirst

theorem getLast?_intercalate_ne (noHyphen : ∀ piece ∈ pieces, '-' ∉ piece)
    (filled : pieces.getLast? ≠ some []) : (List.intercalate ['-'] pieces).getLast? ≠ some '-' := by
  cases pieces with
  | nil => simp
  | cons piece rest =>
      rw [intercalate_cons_eq]
      rcases List.eq_nil_or_concat' rest with rfl | ⟨front, last, rfl⟩
      · intro hyphen
        rw [List.flatMap_nil, List.append_nil] at hyphen
        exact noHyphen piece List.mem_cons_self (List.mem_of_getLast? hyphen)
      · have nonempty : last ≠ [] := by
          rw [← List.cons_append, List.getLast?_concat] at filled
          exact mt (congrArg some) filled
        have own : '-' ∉ last := noHyphen last (by simp)
        intro hyphen
        rw [List.flatMap_append, ← List.append_assoc, List.flatMap_singleton, List.append_cons,
          List.getLast?_append_of_ne_nil _ nonempty] at hyphen
        exact own (List.mem_of_getLast? hyphen)

/-- A character that is no hyphen stands before a hyphen where a piece ends with it that is not the
last. -/
theorem pair_infix_intercalate_iff (noHyphen : ∀ piece ∈ pieces, '-' ∉ piece) (other : a ≠ '-') :
    [a, '-'] <:+: List.intercalate ['-'] pieces ↔
      ∃ piece ∈ pieces.dropLast, piece.getLast? = some a := by
  induction pieces with
  | nil => simp
  | cons piece rest ih =>
      obtain ⟨own, others⟩ := List.forall_mem_cons.1 noHyphen
      cases rest with
      | nil => simpa using not_pair_infix_of_noHyphen own
      | cons next rest =>
          rw [List.intercalate_cons_cons, List.append_assoc, List.singleton_append,
            pair_infix_append_iff own, pair_infix_hyphen_cons_iff, ih others]
          simp [other]

/-- Two hyphens stand together where a piece between others is empty. -/
theorem hyphens_infix_intercalate_iff (noHyphen : ∀ piece ∈ pieces, '-' ∉ piece) :
    ['-', '-'] <:+: List.intercalate ['-'] pieces ↔ [] ∈ pieces.tail.dropLast := by
  induction pieces with
  | nil => simp
  | cons piece rest ih =>
      obtain ⟨own, others⟩ := List.forall_mem_cons.1 noHyphen
      cases rest with
      | nil => simpa using not_pair_infix_of_noHyphen own
      | cons next rest =>
          have notLast : piece.getLast? ≠ some '-' := fun last => own (List.mem_of_getLast? last)
          rw [List.intercalate_cons_cons, List.append_assoc, List.singleton_append,
            pair_infix_append_iff own, pair_infix_hyphen_cons_iff, ih others,
            head?_intercalate_iff others]
          cases rest with
          | nil => simp [notLast]
          | cons third rest => simp [notLast, eq_comm]

end Hyphens

/-! ## Settled names -/

/-- Whether hyphens are tidy and none stands behind a dot. -/
structure Settled (cs : List Char) : Prop extends TidyHyphens cs where
  closed : ¬ ['.', '-'] <:+: cs

/-- Joined pieces are settled if none but the last is empty or ends with a dot. -/
theorem settled_intercalate_iff {pieces : List (List Char)}
    (noHyphen : ∀ piece ∈ pieces, '-' ∉ piece) (filled : pieces.getLast? ≠ some []) :
    Settled (List.intercalate ['-'] pieces) ↔
      ∀ piece ∈ pieces.dropLast, piece ≠ [] ∧ piece.getLast? ≠ some '.' := by
  have dotHyphen := pair_infix_intercalate_iff noHyphen (show '.' ≠ '-' by decide)
  have hyphens := hyphens_infix_intercalate_iff noHyphen
  have first := head?_intercalate_iff noHyphen
  constructor
  · intro settled piece member
    refine ⟨?_, fun dot => settled.closed (dotHyphen.2 ⟨piece, member, dot⟩)⟩
    rintro rfl
    -- An empty piece is the first of several, or it stands between others.
    cases pieces with
    | nil => exact absurd member (by simp)
    | cons own rest =>
        cases rest with
        | nil => exact absurd member (by simp)
        | cons next rest =>
            rcases List.mem_cons.1 member with rfl | between
            · exact settled.start (first.2 ⟨by simp, rfl⟩)
            · exact settled.single (hyphens.2 between)
  · intro each
    refine ⟨⟨?_, getLast?_intercalate_ne noHyphen filled, ?_⟩, ?_⟩
    · rw [Ne, first]
      rintro ⟨several, empty⟩
      have member : [] ∈ pieces.dropLast := by
        match pieces, several, empty with
        | _ :: _ :: _, _, rfl => exact List.mem_cons_self
      exact (each [] member).1 rfl
    · rw [hyphens, ← List.tail_dropLast]
      exact fun between => (each [] (List.mem_of_mem_tail between)).1 rfl
    · rw [dotHyphen]
      rintro ⟨piece, member, dot⟩
      exact (each piece member).2 dot

/-! ## Collected names -/

/-- The maximal runs of characters of a kind in the keys of a path, in order. -/
def pathRuns (kind : Char → Bool) (segments : List String) : List (List Char) :=
  segments.flatMap fun segment => words kind segment.toList

/-- The runs of keys are those of the keys that are joined. -/
theorem words_joined (kind : Char → Bool) (noHyphen : kind '-' = false) (segments : List String) :
    words kind (List.intercalate ['-'] ((segments.filter (!·.isEmpty)).map String.toList)) =
      pathRuns kind segments := by
  rw [words_intercalate noHyphen, List.flatMap_map, flatMap_words_filter, pathRuns]

theorem isKept_hyphen : isKept '-' = false := by decide

theorem toLower_eq_dot_iff (c : Char) : c.toLower = '.' ↔ c = '.' := by
  constructor
  · intro dot
    have other : c.isAlphanum = false := by
      rw [← isAlphanum_toLower_eq, dot]
      decide
    have same : c.toLower = c :=
      toLower_of_not_isUpper fun upper => by simp [isAlphanum_of_isUpper upper] at other
    rw [← same, dot]
  · rintro rfl
    decide

section Keys

variable (segments : List String)

/-- The pieces of a collected name: the runs of letters, digits and dots of the keys, closed before
the hyphens. -/
def namePieces : List (List Char) := closePieces ((pathRuns isKept segments).map lowered)

theorem mem_pathRuns {kind : Char → Bool} {segments : List String} {run : List Char}
    (h : run ∈ pathRuns kind segments) : run ≠ [] ∧ ∀ c ∈ run, kind c = true := by
  obtain ⟨segment, -, member⟩ := List.mem_flatMap.1 h
  exact ⟨ne_nil_of_mem_words member, keep_of_mem_words member⟩

/-- The characters of a piece are kept by kebab case, and lower case already. -/
theorem of_mem_namePieces {piece : List Char} (h : piece ∈ namePieces segments) :
    ∀ c ∈ piece, isKept c = true ∧ c.toLower = c := by
  intro c inPiece
  obtain ⟨low, isLow, subset⟩ := exists_of_mem_closePieces h
  obtain ⟨run, member, rfl⟩ := List.mem_map.1 isLow
  obtain ⟨d, inRun, rfl⟩ := List.mem_map.1 (subset inPiece)
  exact ⟨isKept_toLower ((mem_pathRuns member).2 d inRun), toLower_toLower d⟩

theorem noHyphen_namePieces : ∀ piece ∈ namePieces segments, '-' ∉ piece := by
  intro piece member hyphen
  have kept := (of_mem_namePieces segments member '-' hyphen).1
  rw [isKept_hyphen] at kept
  exact Bool.false_ne_true kept

theorem getLast?_namePieces : (namePieces segments).getLast? ≠ some [] := by
  rw [namePieces, getLast?_closePieces, List.getLast?_map]
  intro empty
  obtain ⟨run, isLast, none_left⟩ := Option.map_eq_some_iff.1 empty
  exact (mem_pathRuns (List.mem_of_getLast? isLast)).1 (List.map_eq_nil_iff.1 none_left)

/-- A collected name joins its pieces. -/
theorem toList_joinPath :
    (joinPath segments).toList = List.intercalate ['-'] (namePieces segments) := by
  have noHyphen : ∀ low ∈ (pathRuns isKept segments).map lowered, '-' ∉ low := by
    intro low member hyphen
    obtain ⟨run, isRun, rfl⟩ := List.mem_map.1 member
    obtain ⟨c, inRun, same⟩ := List.mem_map.1 hyphen
    have kept := isKept_toLower ((mem_pathRuns isRun).2 c inRun)
    rw [same, isKept_hyphen] at kept
    exact Bool.false_ne_true kept
  rw [joinPath, String.toList_ofList, kebabChars_eq, words_joined isKept isKept_hyphen, hyphenated,
    closeDots_intercalate noHyphen, namePieces]

/-! ## Collecting again -/

/-- The runs of a collected name are its pieces that are not empty. -/
theorem pathRuns_joinPath :
    pathRuns isKept [joinPath segments] = (namePieces segments).filter fun piece => !piece.isEmpty := by
  have own : ∀ piece ∈ namePieces segments,
      words isKept piece = [piece].filter fun piece => !piece.isEmpty := by
    intro piece member
    cases piece with
    | nil => rfl
    | cons c rest =>
        have kept : ∀ d ∈ c :: rest, isKept d = true := fun d hd =>
          (of_mem_namePieces segments member d hd).1
        exact words_of_run (List.cons_ne_nil c rest) kept
  rw [pathRuns, List.flatMap_singleton, toList_joinPath, words_intercalate isKept_hyphen,
    List.flatMap_congr own, ← List.filter_flatMap, List.flatMap_singleton']

/-- Of a collected name that is collected again, the pieces that are not empty are closed again. -/
theorem namePieces_joinPath :
    namePieces [joinPath segments] =
      closePieces ((namePieces segments).filter fun piece => !piece.isEmpty) := by
  have low : ∀ piece ∈ (namePieces segments).filter fun piece => !piece.isEmpty,
      lowered piece = piece := by
    intro piece member
    have chars := of_mem_namePieces segments (List.mem_filter.1 member).1
    calc lowered piece = piece.map id := List.map_congr_left fun c hc => (chars c hc).2
      _ = piece := List.map_id piece
  rw [namePieces, pathRuns_joinPath, List.map_congr_left low, List.map_id']

/-- The pieces change in no way if none but the last is empty or ends with a dot. -/
theorem namePieces_joinPath_eq_iff :
    namePieces [joinPath segments] = namePieces segments ↔
      ∀ piece ∈ (namePieces segments).dropLast, piece ≠ [] ∧ piece.getLast? ≠ some '.' := by
  have filled := getLast?_namePieces segments
  rw [namePieces_joinPath]
  generalize namePieces segments = pieces at filled ⊢
  constructor
  · intro same
    have all : pieces.filter (fun piece => !piece.isEmpty) = pieces := by
      apply List.filter_sublist.eq_of_length
      rw [← length_closePieces, same]
    rw [all, closePieces_eq_self_iff] at same
    intro piece member
    refine ⟨?_, same piece member⟩
    have kept := List.filter_eq_self.1 all piece (List.dropLast_subset pieces member)
    simpa using kept
  · intro each
    have all : pieces.filter (fun piece => !piece.isEmpty) = pieces := by
      rw [List.filter_eq_self]
      intro piece member
      by_cases isLast : some piece = pieces.getLast?
      · simpa using fun empty => filled (empty ▸ isLast).symm
      · simpa using (each piece (List.mem_dropLast_of_mem_of_ne_getLast? member isLast)).1
    rw [all, closePieces_eq_self_iff]
    exact fun piece member => (each piece member).2

theorem toList_joinPath_eq_nil_iff :
    (joinPath segments).toList = [] ↔ namePieces segments = [] := by
  have filled := getLast?_namePieces segments
  rw [toList_joinPath]
  generalize namePieces segments = pieces at filled ⊢
  cases pieces with
  | nil => simp
  | cons piece rest =>
      rw [intercalate_cons_eq]
      cases rest with
      | nil => simpa using filled
      | cons next rest => simp

/-- A collected name is cut into its pieces at its hyphens. -/
theorem splitOn_joinPath (nonempty : namePieces segments ≠ []) :
    (joinPath segments).toList.splitOn '-' = namePieces segments := by
  rw [toList_joinPath, List.splitOn_intercalate _ (noHyphen_namePieces segments) nonempty]

/-- Collected names are the same if their pieces are. -/
theorem joinPath_eq_iff (others : List String) :
    joinPath others = joinPath segments ↔ namePieces others = namePieces segments := by
  rw [← String.toList_inj]
  constructor
  · intro same
    by_cases empty : namePieces segments = []
    · rw [(toList_joinPath_eq_nil_iff segments).2 empty, toList_joinPath_eq_nil_iff] at same
      rw [same, empty]
    · have othersEmpty : namePieces others ≠ [] := by
        rw [Ne, ← toList_joinPath_eq_nil_iff, same, toList_joinPath_eq_nil_iff]
        exact empty
      rw [← splitOn_joinPath others othersEmpty, same, splitOn_joinPath segments empty]
  · intro same
    rw [toList_joinPath, toList_joinPath, same]

end Keys

/-! ## The form of collected names -/

/-- How the runs of letters, digits and dots of a path make its collected name. -/
structure CollectedAs (runs : List (List Char)) (name : List Char) : Prop where
  /-- Every run that a hyphen follows loses the dot at its end. -/
  joined : name = List.intercalate ['-'] (closePieces (runs.map (List.map Char.toLower)))
  stop : name.getLast? ≠ some '-'
  /-- A hyphen stands first where the first of several runs is a dot. -/
  start_iff : name.head? = some '-' ↔ 2 ≤ runs.length ∧ runs.head? = some ['.']
  /-- Two hyphens stand together where a run between others is a dot. -/
  single_iff : ['-', '-'] <:+: name ↔ ['.'] ∈ runs.tail.dropLast
  /-- A dot stays before a hyphen where a run before the last ends with two. -/
  closed_iff : ['.', '-'] <:+: name ↔ ∃ run ∈ runs.dropLast, ['.', '.'] <:+ run
  settled_iff : Settled name ↔ ∀ run ∈ runs.dropLast, run ≠ ['.'] ∧ ¬ ['.', '.'] <:+ run

section Runs

theorem getLast?_lowered_iff (run : List Char) :
    (lowered run).getLast? = some '.' ↔ run.getLast? = some '.' := by
  rw [lowered, List.getLast?_map]
  simp [toLower_eq_dot_iff]

/-- Lower case leaves the dots at the end of a run alone. -/
theorem undotted_lowered (run : List Char) : undotted (lowered run) = lowered (undotted run) := by
  unfold undotted
  simp only [getLast?_lowered_iff]
  split
  · exact List.map_dropLast.symm
  · rfl

theorem closed_eq_nil_iff {run : List Char} (nonempty : run ≠ []) :
    undotted (lowered run) = [] ↔ run = ['.'] := by
  rw [undotted_lowered, lowered, List.map_eq_nil_iff, undotted_eq_nil_iff, or_iff_right nonempty]

theorem getLast?_closed_iff (run : List Char) :
    (undotted (lowered run)).getLast? = some '.' ↔ ['.', '.'] <:+ run := by
  rw [undotted_lowered, getLast?_lowered_iff, getLast?_undotted_iff]

/-- What becomes of the runs before the last. -/
theorem dropLast_closed (runs : List (List Char)) :
    (closePieces (runs.map lowered)).dropLast =
      runs.dropLast.map fun run => undotted (lowered run) := by
  rw [dropLast_closePieces, ← List.map_dropLast, List.map_map]
  rfl

/-- The runs of a path make its collected name. -/
theorem collectedAs_joinPath (segments : List String) :
    CollectedAs (pathRuns isKept segments) (joinPath segments).toList := by
  have noHyphen := noHyphen_namePieces segments
  have filled := getLast?_namePieces segments
  have nonempty : ∀ run ∈ pathRuns isKept segments, run ≠ [] := fun run h => (mem_pathRuns h).1
  rw [toList_joinPath]
  unfold namePieces at *
  generalize pathRuns isKept segments = runs at noHyphen filled nonempty ⊢
  refine ⟨rfl, getLast?_intercalate_ne noHyphen filled, ?_, ?_, ?_, ?_⟩
  · rw [head?_intercalate_iff noHyphen, length_closePieces, List.length_map, and_congr_right_iff]
    intro several
    rw [head?_closePieces (by simpa using several), List.head?_map, Option.map_map]
    cases runs with
    | nil => simp
    | cons run rest => simpa using closed_eq_nil_iff (nonempty run List.mem_cons_self)
  · rw [hyphens_infix_intercalate_iff noHyphen, tail_closePieces, ← List.map_tail, dropLast_closed,
      List.mem_map]
    have within : ∀ run ∈ runs.tail.dropLast, run ≠ [] := fun run h =>
      nonempty run (List.mem_of_mem_tail (List.dropLast_subset _ h))
    constructor
    · rintro ⟨run, member, empty⟩
      exact (closed_eq_nil_iff (within run member)).1 empty ▸ member
    · exact fun member => ⟨['.'], member, rfl⟩
  · rw [pair_infix_intercalate_iff noHyphen (by decide), dropLast_closed]
    simp only [List.mem_map, exists_exists_and_eq_and, getLast?_closed_iff]
  · rw [settled_intercalate_iff noHyphen filled, dropLast_closed, List.forall_mem_map]
    apply forall₂_congr
    intro run member
    rw [Ne, Ne, closed_eq_nil_iff (nonempty run (List.dropLast_subset runs member)),
      getLast?_closed_iff]

end Runs

/-- The runs of a path, key by key. -/
theorem forall₂_maximalRuns (kind : Char → Bool) (segments : List String) :
    List.Forall₂ (fun segment own => MaximalRuns kind segment.toList own) segments
      (segments.map fun segment => words kind segment.toList) := by
  rw [List.forall₂_map_right_iff, List.forall₂_same]
  intro segment _
  exact (maximalRuns_iff segment.toList _).2 rfl

/-- **Collected names are settled but for dots at the end of runs.** The runs of letters, digits and
dots of the keys are joined by hyphens, each that a hyphen follows without one dot at its end. The name
does not end with a hyphen. It starts with one, has two together, or has one behind a dot, exactly if
there is more than one run and the first is a dot, a run between others is a dot, or a run before the
last ends with two dots; and collecting it again changes nothing exactly if nothing of this is the
case. -/
theorem collected_names_settled_iff (segments : List String) :
    ∃ runs : List (List (List Char)),
      List.Forall₂ (fun segment own =>
        MaximalRuns (fun c => c.isAlphanum || c == '.') segment.toList own) segments runs ∧
      CollectedAs runs.flatten (joinPath segments).toList ∧
      (joinPath [joinPath segments] = joinPath segments ↔ Settled (joinPath segments).toList) := by
  refine ⟨_, forall₂_maximalRuns isKept segments, ?_, ?_⟩
  · rw [← List.flatMap_def]
    exact collectedAs_joinPath segments
  · rw [joinPath_eq_iff, namePieces_joinPath_eq_iff, toList_joinPath,
      settled_intercalate_iff (noHyphen_namePieces segments) (getLast?_namePieces segments)]

/-- **Dots leave hyphens and dots behind.** Of two dots at the end of a key one stays before the
hyphen; a key that is a dot leaves a second hyphen, or one at the start. -/
theorem collected_names_not_settled :
    joinPath ["a..", "b"] = "a.-b" ∧ joinPath ["a", ".", "b"] = "a--b" ∧
      joinPath [".", "b"] = "-b" ∧ joinPath ["a.-b"] = "a-b" ∧
      (¬∀ segments, Settled (joinPath segments).toList) ∧
      ¬∀ segments, joinPath [joinPath segments] = joinPath segments := by
  refine ⟨by decide, by decide, by decide, by decide, ?_, ?_⟩
  · intro settled
    exact (settled ["a..", "b"]).closed ⟨['a'], ['b'], by decide⟩
  · intro again
    exact absurd (again ["a..", "b"]) (by decide)

end DesignTokens
