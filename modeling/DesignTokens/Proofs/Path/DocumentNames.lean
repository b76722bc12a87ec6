import DesignTokens.Proofs.Path.Routes
import DesignTokens.Proofs.Text.Octets

/-!
# Names of token documents

A file below a directory is a token document by its own name alone, whatever the directories above it
are called (`isDocument_appendAll`): the name is a text that ends in `.json`, is more than that and
does not start with `$` (`isDocumentName_iff`). Different places below a path have different paths
(`appendAll_inj`).
-/

set_option autoImplicit false

namespace DesignTokens.Path

/-! ## Names -/

/-- An extension follows the last dot of a name, and something stands before that dot. -/
theorem extensionOf?_eq_some_iff {name ending : List Char} :
    extensionOf? name = some ending ↔
      '.' ∉ ending ∧ ∃ stem, stem ≠ [] ∧ name = stem ++ '.' :: ending := by
  rw [extensionOf?]
  constructor
  · intro h
    obtain ⟨long, isEnding⟩ := Option.ite_none_right_eq_some.1 h
    obtain rfl := Option.some.inj isEnding
    have noDot : '.' ∉ (name.reverse.takeWhile (· != '.')).reverse := by
      intro dot
      have passed := List.all_eq_true.1 List.all_takeWhile '.' (List.mem_reverse.1 dot)
      exact absurd passed (by simp)
    refine ⟨noDot, ?_⟩
    have whole := List.takeWhile_append_dropWhile (p := (· != '.')) (l := name.reverse)
    generalize name.reverse.takeWhile (· != '.') = back at long whole ⊢
    cases front : name.reverse.dropWhile (· != '.') with
    | nil =>
        rw [front, List.append_nil] at whole
        rw [whole, List.reverse_reverse] at long
        exact absurd long (by omega)
    | cons c stem =>
        have dot : c = '.' := by
          have stopped := List.head?_dropWhile_not (· != '.') name.reverse
          rw [front] at stopped
          simpa using stopped
        have cut : name = stem.reverse ++ '.' :: back.reverse := by
          rw [← List.reverse_reverse name, ← whole, front, dot]
          simp
        refine ⟨stem.reverse, ?_, cut⟩
        intro nothing
        rw [cut, nothing] at long
        exact absurd long (by simp)
  · rintro ⟨noDot, stem, some_stem, rfl⟩
    have passed : ∀ c ∈ ending.reverse, (c != '.') = true := by
      intro c member
      rw [bne_iff_ne]
      rintro rfl
      exact noDot (List.mem_reverse.1 member)
    have back : (stem ++ '.' :: ending).reverse.takeWhile (· != '.') = ending.reverse := by
      rw [List.reverse_append, List.reverse_cons, List.append_assoc,
        List.takeWhile_append_of_pos passed]
      simp
    have stands : 0 < stem.length := List.length_pos_iff.2 some_stem
    simp only [back, List.reverse_reverse, List.length_append, List.length_cons]
    exact if_pos (by omega)

theorem isDocumentText_iff (text : String) :
    isDocumentText text = true ↔
      ".json".toList <:+ text.toList ∧ text ≠ ".json" ∧ ¬ "$".toList <+: text.toList := by
  have marked : text.toList.head? = some metadataMarker ↔ "$".toList <+: text.toList := by
    rw [metadataMarker, show "$".toList = ['$'] from rfl]
    cases text.toList with
    | nil => simp
    | cons c rest => simp [List.cons_prefix_cons, eq_comm]
  rw [isDocumentText, Bool.and_eq_true, beq_iff_eq, bne_iff_ne, ne_eq, marked, ← and_assoc]
  refine and_congr_left fun _ => ?_
  rw [extensionOf?_eq_some_iff, show ".json".toList = '.' :: "json".toList from rfl]
  constructor
  · rintro ⟨-, stem, some_stem, cut⟩
    refine ⟨⟨stem, cut.symm⟩, ?_⟩
    rintro rfl
    exact some_stem (List.append_left_eq_self.1 cut.symm)
  · rintro ⟨⟨stem, cut⟩, more⟩
    refine ⟨by decide, stem, ?_, cut.symm⟩
    rintro rfl
    exact more (String.toList_injective cut.symm)

/-- **The names of token documents** are the octets of texts that end in `.json`, are more than that
and do not start with `$`. -/
theorem isDocumentName_iff (name : FileName) :
    isDocumentName name = true ↔
      ∃ text, name = Utf8.octets text ∧
        ".json".toList <:+ text.toList ∧ text ≠ ".json" ∧ ¬ "$".toList <+: text.toList := by
  simp only [isDocumentName, Option.any_eq_true, Utf8.decode?_eq_some_iff, isDocumentText_iff]

/-! ## Paths -/

/-- The file name of a path that ends in a name is that name. -/
theorem fileName?_of_route {path : Path} {name : FileName}
    (ends : path.route.steps.getLast? = some (.down name)) (unslashed : path.route.slashed = false) :
    path.fileName? = some name := by
  obtain ⟨front, last, segments, isDown, -⟩ := exists_segments ends unslashed
  obtain ⟨rfl, busy, notAbove⟩ := ofSegment?_down isDown
  have notHere : name ≠ [dot] := by
    rintro rfl
    exact absurd busy (by decide)
  have significant : path.significant = front ++ [name] := by
    rw [Path.significant, segments, dropIdleEnd_concat _ _ busy]
  simp [fileName?, significant, notHere, notAbove]

/-- **A file below a path is a token document by its own name.** -/
theorem isDocument_appendAll {path : Path} (written : path.octets ≠ []) {directories : Place}
    {name : FileName} (names : ∀ part ∈ directories ++ [name], IsName part) :
    (path.appendAll (directories ++ [name])).isDocument = isDocumentName name := by
  obtain ⟨-, -, steps, slashed⟩ := route_appendAll written names
  have ends : (path.appendAll (directories ++ [name])).route.steps.getLast? = some (.down name) := by
    rw [steps, List.map_append, ← List.append_assoc]
    exact List.getLast?_concat
  rw [isDocument, fileName?_of_route ends (slashed (by simp))]
  rfl

/-- Different places below a path have different paths. -/
theorem appendAll_inj {path : Path} (written : path.octets ≠ []) {first second : Place}
    (names : ∀ name ∈ first, IsName name) (names' : ∀ name ∈ second, IsName name) :
    path.appendAll first = path.appendAll second ↔ first = second := by
  refine ⟨fun same => ?_, congrArg path.appendAll⟩
  have steps := (route_appendAll written names).2.2.1
  rw [same, (route_appendAll written names').2.2.1, List.append_cancel_left_eq] at steps
  exact (List.map_injective_iff.2 (fun _ _ => Step.down.inj) steps).symm

end DesignTokens.Path
