import DesignTokens.Compilation
import DesignTokens.Listing
import DesignTokens.Proofs.Name.Spelling

/-!
# Rows of the table

A name is cut by octets, so it can be cut only where one of its characters ends
(`exists_truncate?_iff`). Of a canonical name every character is one octet: it can be cut anywhere, and
its octets are counted as its characters are (`truncate?_name`). So every final token has a row, of its
name and of what the stylesheet declares for it (`rows_show_names_and_declarations`).
-/

set_option autoImplicit false

namespace DesignTokens

namespace Listing

/-! ## Cutting texts -/

theorem utf8ByteSize_cons (c : Char) (rest : List Char) :
    (String.ofList (c :: rest)).utf8ByteSize = c.utf8Size + (String.ofList rest).utf8ByteSize := by
  rw [String.ofList_cons, String.utf8ByteSize_append, String.utf8ByteSize_singleton]

/-- The first octets of a text are those of the characters in front, if these take so many octets. -/
theorem firstOctets?_eq_some_iff (size : Nat) (cs front : List Char) :
    firstOctets? size cs = some front ↔
      front <+: cs ∧ (String.ofList front).utf8ByteSize = size := by
  fun_induction firstOctets? size cs generalizing front with
  | case1 cs =>
      rw [String.utf8ByteSize_eq_zero_iff, String.ofList_eq_empty_iff, Option.some.injEq, eq_comm]
      exact ⟨fun empty => ⟨empty ▸ List.nil_prefix, empty⟩, And.right⟩
  | case2 size =>
      rw [List.prefix_nil, iff_false_left (by simp)]
      rintro ⟨rfl, whole⟩
      exact absurd whole (by simp)
  | case3 size c rest fits ih =>
      rw [List.prefix_cons_iff, Option.map_eq_some_iff]
      constructor
      · rintro ⟨front, found, rfl⟩
        obtain ⟨isPrefix, sized⟩ := (ih front).1 found
        exact ⟨Or.inr ⟨front, rfl, isPrefix⟩, by rw [utf8ByteSize_cons, sized]; omega⟩
      · rintro ⟨rfl | ⟨front, rfl, isPrefix⟩, whole⟩
        · exact absurd whole (by simp)
        · rw [utf8ByteSize_cons] at whole
          exact ⟨front, (ih front).2 ⟨isPrefix, by omega⟩, rfl⟩
  | case4 size c rest tooLong =>
      rw [List.prefix_cons_iff, iff_false_left (by simp)]
      rintro ⟨rfl | ⟨front, rfl, -⟩, whole⟩
      · exact absurd whole (by simp)
      · rw [utf8ByteSize_cons] at whole
        omega

/-- A text can be cut where a character ends, and nowhere else. -/
theorem exists_firstOctets?_iff (size : Nat) (text : String) :
    (∃ front, firstOctets? size text.toList = some front) ↔
      (String.Pos.Raw.mk size).IsValid text := by
  rw [String.Pos.Raw.isValid_iff_exists_append]
  simp only [firstOctets?_eq_some_iff]
  constructor
  · rintro ⟨front, ⟨back, whole⟩, sized⟩
    refine ⟨String.ofList front, String.ofList back, ?_, ?_⟩
    · rw [← String.ofList_append, whole, String.ofList_toList]
    · rw [← sized]
      rfl
  · rintro ⟨front, back, rfl, sized⟩
    refine ⟨front.toList, ?_, ?_⟩
    · rw [String.toList_append]
      exact List.prefix_append _ _
    · rw [String.ofList_toList]
      exact (congrArg String.Pos.Raw.byteIdx sized).symm

/-- A text is shown if it is not too long, or can be cut where the ellipsis begins. -/
theorem exists_truncate?_iff (width : Nat) (text : String) :
    (∃ shown, truncate? width text = some shown) ↔
      (width < text.utf8ByteSize →
        (String.Pos.Raw.mk (width - ellipsis.length)).IsValid text) := by
  rw [← exists_firstOctets?_iff, truncate?]
  split
  · next short => exact iff_of_true ⟨_, rfl⟩ fun long => absurd short (by omega)
  · next long =>
      rw [imp_iff_right (by omega)]
      simp

/-- Four octets end within the second of these characters, which take three each. -/
example : truncate? 7 "€€€" = none := by decide

/-! ## Cutting names -/

/-- Every character of a name is one octet. -/
theorem utf8Size_of_mem_name {name : CanonicalName} {c : Char} (member : c ∈ name.text.toList) :
    c.utf8Size = 1 := by
  rw [Char.utf8Size_eq_one_iff]
  rcases isWordChar_or_eq_hyphen name.spelled member with isWord | rfl
  · rcases Bool.or_eq_true_iff.1 isWord with lower | digit
    · have greatest := of_decide_eq_true (Bool.and_eq_true_iff.1 lower).2
      exact UInt32.le_trans greatest (by decide)
    · have greatest := of_decide_eq_true (Bool.and_eq_true_iff.1 digit).2
      exact UInt32.le_trans greatest (by decide)
  · decide

theorem utf8ByteSize_of_ascii {cs : List Char} (ascii : ∀ c ∈ cs, c.utf8Size = 1) :
    (String.ofList cs).utf8ByteSize = cs.length := by
  induction cs with
  | nil => rfl
  | cons c rest ih =>
      obtain ⟨here, later⟩ := List.forall_mem_cons.1 ascii
      rw [utf8ByteSize_cons, here, ih later, List.length_cons, Nat.add_comm]

/-- A name has as many octets as characters. -/
theorem utf8ByteSize_name (name : CanonicalName) : name.text.utf8ByteSize = name.text.length := by
  have ascii : ∀ c ∈ name.text.toList, c.utf8Size = 1 := fun _ member => utf8Size_of_mem_name member
  have sized := utf8ByteSize_of_ascii ascii
  rwa [String.ofList_toList, String.length_toList] at sized

/-- What is shown of a name: all of it, or its first characters and the ellipsis. -/
def shownName (width : Nat) (name : CanonicalName) : List Char :=
  if name.text.length ≤ width then name.text.toList
  else name.text.toList.take (width - ellipsis.length) ++ ellipsis

/-- A name that is too long is longer than what stays of it. -/
theorem length_take_name {width : Nat} {name : CanonicalName} (long : ¬ name.text.length ≤ width) :
    (name.text.toList.take (width - ellipsis.length)).length = width - ellipsis.length := by
  rw [List.length_take_of_le]
  rw [String.length_toList]
  omega

/-- Every name can be cut. -/
theorem truncate?_name (width : Nat) (name : CanonicalName) :
    truncate? width name.text = some (shownName width name) := by
  rw [truncate?, utf8ByteSize_name, shownName]
  split
  · rfl
  · next long =>
      have sized : (String.ofList (name.text.toList.take (width - ellipsis.length))).utf8ByteSize =
          width - ellipsis.length := by
        rw [utf8ByteSize_of_ascii fun c member => utf8Size_of_mem_name (List.mem_of_mem_take member),
          length_take_name long]
      rw [(firstOctets?_eq_some_iff _ _ _).2 ⟨List.take_prefix _ _, sized⟩, Option.map_some]

/-! ## Lines of two columns -/

theorem length_padRight {width : Nat} {cs : List Char} (fits : cs.length ≤ width) :
    (padRight width cs).length = width := by
  rw [padRight, List.length_append, List.length_replicate]
  omega

section Columns

variable {first : List Char} (fits : first.length ≤ nameWidth) (second : String)

include fits

theorem take_columns : (columns first second).toList.take nameWidth = padRight nameWidth first := by
  rw [columns, String.toList_ofList, List.take_left' (length_padRight fits)]

theorem getElem?_columns : (columns first second).toList[nameWidth]? = some ' ' := by
  rw [columns, String.toList_ofList, List.getElem?_append_right (length_padRight fits).le,
    length_padRight fits, Nat.sub_self]
  rfl

theorem drop_columns : (columns first second).toList.drop (nameWidth + 1) = second.toList := by
  rw [columns, String.toList_ofList, ← List.drop_drop, List.drop_left' (length_padRight fits)]
  rfl

end Columns

/-! ## Rows of tokens -/

theorem length_shownName_le (name : CanonicalName) :
    (shownName nameWidth name).length ≤ nameWidth := by
  rw [shownName]
  split
  · rwa [String.length_toList]
  · next long =>
      rw [List.length_append, length_take_name long]
      exact Nat.le_refl _

theorem padRight_shownName_of_le {name : CanonicalName} (short : name.text.length ≤ nameWidth) :
    padRight nameWidth (shownName nameWidth name) =
      name.text.toList ++ List.replicate (nameWidth - name.text.length) ' ' := by
  rw [shownName, if_pos short, padRight, String.length_toList]

/-- A name that is cut fills the column. -/
theorem padRight_shownName_of_lt {name : CanonicalName} (long : nameWidth < name.text.length) :
    padRight nameWidth (shownName nameWidth name) =
      name.text.toList.take (nameWidth - ellipsis.length) ++ ellipsis := by
  have tooLong := Nat.not_le_of_lt long
  have full : (name.text.toList.take (nameWidth - ellipsis.length) ++ ellipsis).length =
      nameWidth := by
    rw [List.length_append, length_take_name tooLong]
    rfl
  rw [shownName, if_neg tooLong, padRight, full, Nat.sub_self, List.replicate_zero, List.append_nil]

/-- A row shows a token beside the declarations of a stylesheet. -/
structure IsRowOf (declarations : List Declaration) (token : CanonicalName × Json)
    (row : String) : Prop where
  written : tableRow? token.1.text token.2 = some row
  /-- If the name is cut, then where a character ends. -/
  boundary : 40 < token.1.text.utf8ByteSize → (String.Pos.Raw.mk 37).IsValid token.1.text
  whole : token.1.text.length ≤ 40 → row.toList.take 40 =
    token.1.text.toList ++ List.replicate (40 - token.1.text.length) ' '
  cut : 40 < token.1.text.length →
    row.toList.take 40 = token.1.text.toList.take 37 ++ ['.', '.', '.']
  blank : row.toList[40]? = some ' '
  declared : ∀ text, ⟨token.1, text⟩ ∈ declarations → row.toList.drop 41 = text.toList
  undeclared : (∀ declaration ∈ declarations, declaration.name ≠ token.1) →
    row.toList.drop 41 = "(not emitted)".toList

/-- What the tokens declare under the name of one of them is the text of its value. -/
theorem mem_declarations_iff {tokens : TokenMap} {token : CanonicalName × Json}
    (isToken : token ∈ tokens.entries) (text : String) :
    ⟨token.1, text⟩ ∈ tokens.declarations ↔ token.2.cssText? = some text := by
  rw [TokenMap.declarations, List.mem_filterMap]
  constructor
  · rintro ⟨other, isOther, declared⟩
    obtain ⟨text', isText, same⟩ := Option.map_eq_some_iff.1 declared
    obtain ⟨sameName, rfl⟩ := Declaration.mk.inj same
    obtain rfl := List.inj_on_of_nodup_map tokens.distinct isOther isToken sameName
    exact isText
  · intro isText
    exact ⟨token, isToken, by rw [Declaration.ofToken?, isText, Option.map_some]⟩

/-- Every token has its row. -/
theorem isRowOf_tableRow {tokens : TokenMap} {token : CanonicalName × Json}
    (isToken : token ∈ tokens.entries) :
    IsRowOf tokens.declarations token (tableRow token.1.text token.2) := by
  have fits := length_shownName_le token.1
  have written : tableRow? token.1.text token.2 =
      some (columns (shownName nameWidth token.1) (token.2.cssText?.getD notEmitted)) := by
    rw [tableRow?, truncate?_name, Option.map_some]
  have row : tableRow token.1.text token.2 =
      columns (shownName nameWidth token.1) (token.2.cssText?.getD notEmitted) := by
    rw [tableRow, written, Option.getD_some]
  rw [row]
  have column := take_columns fits (token.2.cssText?.getD notEmitted)
  have rest := drop_columns fits (token.2.cssText?.getD notEmitted)
  refine ⟨written, ?_, ?_, ?_, getElem?_columns fits _, ?_, ?_⟩
  -- The name has been cut, so it could be cut there.
  · exact (exists_truncate?_iff _ _).1 ⟨_, truncate?_name nameWidth token.1⟩
  · exact fun short => column.trans (padRight_shownName_of_le short)
  · exact fun long => column.trans (padRight_shownName_of_lt long)
  · intro text declared
    rw [(mem_declarations_iff isToken text).1 declared] at rest ⊢
    exact rest
  · intro undeclared
    -- A text of the value would be declared.
    have noText : token.2.cssText? = none := by
      rw [Option.eq_none_iff_forall_ne_some]
      intro text isText
      exact undeclared _ ((mem_declarations_iff isToken text).2 isText) rfl
    rw [noText] at rest ⊢
    exact rest

/-- **Listing never fails.** The table of the final tokens is its heading and a row for each token, in
order. No name is cut within a character; a row shows the name, filled up or cut to the width of the
column, a blank, and what the stylesheet declares under the name, or that it declares nothing. -/
theorem rows_show_names_and_declarations (options : CompileOptions) (inputs : List LoadResult) :
    (compile options inputs).css =
        Stylesheet.joinLines (Stylesheet.lines (compile options inputs).tokens.declarations) ∧
      ∃ rows, table (compile options inputs).tokens = header ++ rows ∧
        List.Forall₂ (IsRowOf (compile options inputs).tokens.declarations)
          (compile options inputs).tokens.entries rows := by
  refine ⟨rfl, _, rfl, ?_⟩
  rw [List.forall₂_map_right_iff, List.forall₂_same]
  exact fun token isToken => isRowOf_tableRow isToken

end Listing

end DesignTokens
