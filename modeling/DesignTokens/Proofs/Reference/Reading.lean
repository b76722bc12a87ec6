import DesignTokens.Reference
import Mathlib.Data.List.Basic
import Mathlib.Data.List.TakeWhile

/-!
# Reading references

What is read as a reference: a path between braces, with white space around it or none
(`Reference.parse?_eq_some_iff`). So a reference that is written that way is read back
(`Reference.parse?_render`), and a text can be taken apart that way in at most one manner
(`Reference.Reads.unique`).
-/

set_option autoImplicit false

namespace DesignTokens

namespace Text

theorem trimStart_append_cons {before : List Char} (blank : ∀ c ∈ before, isBlank c = true)
    {first : Char} (visible : isBlank first = false) (rest : List Char) :
    trimStart (before ++ first :: rest) = first :: rest := by
  rw [trimStart, List.dropWhile_append_of_pos blank, List.dropWhile_cons_of_neg (by simp [visible])]

theorem trimEnd_append_cons {after : List Char} (blank : ∀ c ∈ after, isBlank c = true)
    {last : Char} (visible : isBlank last = false) (front : List Char) :
    trimEnd (front ++ last :: after) = front ++ [last] := by
  have reversed : (front ++ last :: after).reverse = after.reverse ++ last :: front.reverse := by
    simp
  have blankReversed : ∀ c ∈ after.reverse, isBlank c = true := fun c hc =>
    blank c (List.mem_reverse.1 hc)
  have dropped := trimStart_append_cons blankReversed visible front.reverse
  rw [trimStart] at dropped
  rw [trimEnd, reversed, dropped, List.reverse_cons, List.reverse_reverse]

theorem exists_trimStart (cs : List Char) :
    ∃ before, (∀ c ∈ before, isBlank c = true) ∧ cs = before ++ trimStart cs :=
  ⟨cs.takeWhile isBlank, fun _ member => List.mem_takeWhile_imp member,
    List.takeWhile_append_dropWhile.symm⟩

/-- What trimming takes off a text is white space at its ends. -/
theorem exists_trim (cs : List Char) :
    ∃ before after, (∀ c ∈ before, isBlank c = true) ∧ (∀ c ∈ after, isBlank c = true) ∧
      cs = before ++ trim cs ++ after := by
  obtain ⟨before, blankBefore, atStart⟩ := exists_trimStart cs
  obtain ⟨after, blankAfter, atEnd⟩ := exists_trimStart (trimStart cs).reverse
  refine ⟨before, after.reverse, blankBefore,
    fun c member => blankAfter c (List.mem_reverse.1 member), ?_⟩
  have trimmed : trimStart cs = trim cs ++ after.reverse := by
    rw [trim, trimEnd, ← trimStart, ← List.reverse_append, ← atEnd, List.reverse_reverse]
  rw [List.append_assoc, ← trimmed]
  exact atStart

end Text

namespace Reference

/-- Whether a text can stand between the braces of a reference. -/
def IsPath (path : String) : Prop := path ≠ "" ∧ ∀ c ∈ path.toList, isBrace c = false

theorem isPath_iff (path : String) :
    IsPath path ↔ path ≠ "" ∧ '\x7b' ∉ path.toList ∧ '\x7d' ∉ path.toList := by
  apply and_congr_right
  intro _
  simp only [isBrace, Bool.or_eq_false_iff, beq_eq_false_iff_ne]
  constructor
  · intro free
    exact ⟨fun member => (free _ member).1 rfl, fun member => (free _ member).2 rfl⟩
  · rintro ⟨noOpening, noClosing⟩ c member
    exact ⟨fun same => noOpening (same ▸ member), fun same => noClosing (same ▸ member)⟩

theorem unbrace?_eq_some_iff (cs path : List Char) :
    unbrace? cs = some path ↔ cs = '\x7b' :: (path ++ ['\x7d']) := by
  constructor
  · intro h
    unfold unbrace? at h
    split at h
    · split at h
      · next rest last =>
          obtain ⟨front, rfl⟩ := List.getLast?_eq_some_iff.1 last
          rw [List.dropLast_concat, Option.some.injEq] at h
          rw [h]
      · exact absurd h (by simp)
    · exact absurd h (by simp)
  · rintro rfl
    simp [unbrace?]

/-- A reference is read from its path between braces, and from nothing else. -/
theorem parse?_eq_some_iff (text : String) (reference : Reference) :
    parse? text = some reference ↔ IsPath reference.path ∧
      Text.trim text.toList = '\x7b' :: (reference.path.toList ++ ['\x7d']) := by
  rw [← unbrace?_eq_some_iff, parse?]
  cases unbraced : unbrace? (Text.trim text.toList) with
  | none => simp
  | some path =>
      have isPath : IsPath (String.ofList path) ↔ (path.isEmpty || path.any isBrace) = false := by
        simp [IsPath, String.ofList_eq_empty_iff]
      show (if path.isEmpty || path.any isBrace then none else some ⟨String.ofList path⟩) =
          some reference ↔ IsPath reference.path ∧ some path = some reference.path.toList
      rw [Option.ite_none_left_eq_some, Bool.not_eq_true, ← isPath]
      constructor
      · rintro ⟨accepted, same⟩
        obtain rfl := Option.some.inj same
        exact ⟨accepted, by rw [String.toList_ofList]⟩
      · rintro ⟨accepted, same⟩
        rw [Option.some.inj same, String.ofList_toList]
        exact ⟨accepted, rfl⟩

/-- A reference that is written with white space around it is read back. -/
theorem parse?_render {path before after : String} (isPath : IsPath path)
    (blankBefore : ∀ c ∈ before.toList, Text.isBlank c = true)
    (blankAfter : ∀ c ∈ after.toList, Text.isBlank c = true) :
    parse? (before ++ render ⟨path⟩ ++ after) = some ⟨path⟩ := by
  have opening : Text.isBlank '\x7b' = false := by decide
  have closing : Text.isBlank '\x7d' = false := by decide
  have written : (before ++ render ⟨path⟩ ++ after).toList =
      before.toList ++ '\x7b' :: (path.toList ++ '\x7d' :: after.toList) := by
    simp [render]
  apply (parse?_eq_some_iff _ _).2
  refine ⟨isPath, ?_⟩
  rw [Text.trim, written, Text.trimStart_append_cons blankBefore opening]
  exact Text.trimEnd_append_cons blankAfter closing ('\x7b' :: path.toList)

/-! ## Taking a text apart -/

/-- A text is white space, a path between braces, and white space. -/
structure Reads (text before path after : String) : Prop where
  written : text = before ++ "\x7b" ++ path ++ "\x7d" ++ after
  blankBefore : ∀ c ∈ before.toList, Text.isBlank c = true
  blankAfter : ∀ c ∈ after.toList, Text.isBlank c = true
  isPath : IsPath path

theorem Reads.toList_eq {text before path after : String} (reads : Reads text before path after) :
    text.toList = before.toList ++ '\x7b' :: (path.toList ++ '\x7d' :: after.toList) := by
  rw [reads.written]
  simp

theorem notMem_of_blank {cs : List Char} (blank : ∀ c ∈ cs, Text.isBlank c = true) {c : Char}
    (visible : Text.isBlank c = false) : c ∉ cs := by
  intro member
  rw [blank c member] at visible
  exact Bool.noConfusion visible

/-- A text can be taken apart in at most one way. -/
theorem Reads.unique {text before path after before' path' after' : String}
    (reads : Reads text before path after) (reads' : Reads text before' path' after') :
    before = before' ∧ path = path' ∧ after = after' := by
  obtain ⟨-, noOpening, noClosing⟩ := (isPath_iff path).1 reads.isPath
  have onlyOpening : '\x7b' ∉ path.toList ++ '\x7d' :: after.toList := by
    rw [List.mem_append, List.mem_cons, not_or, not_or]
    exact ⟨noOpening, by decide, notMem_of_blank reads.blankAfter (by decide)⟩
  have same := reads.toList_eq.symm.trans reads'.toList_eq
  -- The one opening brace and the one closing brace fix where the parts end.
  obtain ⟨sameBefore, -, rest⟩ := (List.append_cons_inj_of_notMem
    (notMem_of_blank reads.blankBefore (by decide)) onlyOpening).1 same
  obtain ⟨samePath, -, sameAfter⟩ := (List.append_cons_inj_of_notMem noClosing
    (notMem_of_blank reads.blankAfter (by decide))).1 rest
  exact ⟨String.toList_injective sameBefore, String.toList_injective samePath,
    String.toList_injective sameAfter⟩

/-- A reference is read exactly if the text is its path between braces and white space. -/
theorem parse?_eq_some_iff_reads (text : String) (reference : Reference) :
    parse? text = some reference ↔ ∃ before after, Reads text before reference.path after := by
  constructor
  · intro parsed
    obtain ⟨isPath, trimmed⟩ := (parse?_eq_some_iff text reference).1 parsed
    obtain ⟨before, after, blankBefore, blankAfter, written⟩ := Text.exists_trim text.toList
    refine ⟨String.ofList before, String.ofList after, ?_, ?_, ?_, isPath⟩
    · apply String.toList_injective
      rw [written, trimmed]
      simp
    · simpa using blankBefore
    · simpa using blankAfter
  · rintro ⟨before, after, reads⟩
    have rendered : text = before ++ render reference ++ after := by
      rw [reads.written, render]
      simp only [String.append_assoc]
    rw [rendered]
    exact parse?_render reads.isPath reads.blankBefore reads.blankAfter

/-- **One grammar, one reading.** A text is read as a reference with a path exactly if it is white
space, an opening brace, the path, a closing brace and white space, where the path is not empty and
without braces. A reference that was read is read back as it is written, with any white space around
it; and no text can be taken apart in two ways. -/
theorem references_are_read_by_their_grammar (text : String) :
    (∀ path, parse? text = some ⟨path⟩ ↔
      ∃ before after : String, text = before ++ "\x7b" ++ path ++ "\x7d" ++ after ∧
        (∀ c ∈ before.toList, Text.isBlank c = true) ∧
        (∀ c ∈ after.toList, Text.isBlank c = true) ∧
        path ≠ "" ∧ '\x7b' ∉ path.toList ∧ '\x7d' ∉ path.toList) ∧
    (∀ reference, parse? text = some reference →
      ∀ before after : String, (∀ c ∈ before.toList, Text.isBlank c = true) →
        (∀ c ∈ after.toList, Text.isBlank c = true) →
        parse? (before ++ render reference ++ after) = some reference) ∧
    ∀ before path after before' path' after', Reads text before path after →
      Reads text before' path' after' → before = before' ∧ path = path' ∧ after = after' := by
  refine ⟨?_, ?_, ?_⟩
  · intro path
    rw [parse?_eq_some_iff_reads]
    constructor
    · rintro ⟨before, after, reads⟩
      exact ⟨before, after, reads.written, reads.blankBefore, reads.blankAfter,
        (isPath_iff path).1 reads.isPath⟩
    · rintro ⟨before, after, written, blankBefore, blankAfter, isPath⟩
      exact ⟨before, after, written, blankBefore, blankAfter, (isPath_iff path).2 isPath⟩
  · intro reference parsed before after blankBefore blankAfter
    exact parse?_render ((parse?_eq_some_iff text reference).1 parsed).1 blankBefore blankAfter
  · intro before path after before' path' after' reads reads'
    exact reads.unique reads'

/-- A reference between a tab and a line end is read, and read back between other blanks. -/
theorem padded_reference_is_read_back :
    parse? "\t\x7ba b\x7d\n" = some ⟨"a b"⟩ ∧
    (∀ c ∈ "\u00a0".toList, Text.isBlank c = true) ∧
    parse? ("\u00a0" ++ render ⟨"a b"⟩ ++ " ") = some ⟨"a b"⟩ := by
  have parsed : parse? "\t\x7ba b\x7d\n" = some ⟨"a b"⟩ := by decide
  have noBreak : ∀ c ∈ "\u00a0".toList, Text.isBlank c = true := List.all_eq_true.1 rfl
  have space : ∀ c ∈ " ".toList, Text.isBlank c = true := List.all_eq_true.1 rfl
  refine ⟨parsed, noBreak, ?_⟩
  exact (references_are_read_by_their_grammar _).2.1 _ parsed _ _ noBreak space

end Reference

end DesignTokens
