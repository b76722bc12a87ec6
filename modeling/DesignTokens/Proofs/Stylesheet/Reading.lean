import DesignTokens.Proofs.Name.Spelling
import DesignTokens.Stylesheet

/-!
# Reading stylesheets

A stylesheet is read line by line: a declaration ends with a semicolon, and its name ends at the first
colon with a blank behind it. Texts of values stand verbatim, so they may hold colons, semicolons and
braces; but no name holds a colon, so the line of a declaration is read back whatever its text is
(`Declaration.read?_line`). If no text has several lines, the whole stylesheet is read back
(`Stylesheet.read?_stylesheet`).
-/

set_option autoImplicit false

namespace DesignTokens

/-! ## Lines -/

namespace Stylesheet

/-- The lines of a text in which a line feed ends every line; none if it does not end the last one. -/
def linesOf? (text : String) : Option (List String) :=
  let pieces := text.toList.splitOn '\n'
  if pieces.getLast? = some [] then some (pieces.dropLast.map String.ofList) else none

theorem splitOn_joinLines {lines : List String} (single : ∀ line ∈ lines, '\n' ∉ line.toList) :
    (joinLines lines).toList.splitOn '\n' = lines.map String.toList ++ [[]] := by
  rw [joinLines, String.toList_ofList]
  induction lines with
  | nil => rfl
  | cons line rest ih =>
      obtain ⟨here, later⟩ := List.forall_mem_cons.1 single
      rw [List.flatMap_cons, List.append_assoc, List.singleton_append,
        List.splitOn_append_cons_self_of_not_mem here, ih later]
      rfl

/-- Lines that have been joined are read back. -/
theorem linesOf?_joinLines {lines : List String} (single : ∀ line ∈ lines, '\n' ∉ line.toList) :
    linesOf? (joinLines lines) = some lines := by
  simp [linesOf?, splitOn_joinLines single]

end Stylesheet

/-! ## Declarations -/

namespace Declaration

/-- Cuts a text at the first colon with a blank behind it. -/
def cut? : List Char → Option (List Char × List Char)
  | ':' :: ' ' :: rest => some ([], rest)
  | c :: rest => (cut? rest).map fun parts => (c :: parts.1, parts.2)
  | [] => none

/-- What follows the first colon makes no difference to where a text is cut. -/
theorem cut?_append {front : List Char} (noColon : ':' ∉ front) (back : List Char) :
    cut? (front ++ ':' :: ' ' :: back) = some (front, back) := by
  induction front with
  | nil => rfl
  | cons c rest ih =>
      rw [List.mem_cons, not_or] at noColon
      rw [List.cons_append, cut?.eq_2 _ _ fun _ same => absurd same.symm noColon.1, ih noColon.2]
      rfl

/-- The name and the text in the line of a declaration: what stands before and behind the first colon
with a blank, without the marks at the start and at the end of the line. -/
def read? (line : String) : Option (String × String) := do
  let inner ← line.toList.dropPrefix? "  --".toList
  let body ← inner.dropSuffix? [';']
  let (name, text) ← cut? body
  return (String.ofList name, String.ofList text)

/-- The name of a declaration and its text. -/
def parts (declaration : Declaration) : String × String :=
  (declaration.name.text, declaration.text)

theorem notMem_name {c : Char} (noWord : isWordChar c = false) (noHyphen : c ≠ '-')
    (name : CanonicalName) : c ∉ name.text.toList := by
  intro member
  rcases isWordChar_or_eq_hyphen name.spelled member with isWord | isHyphen
  · rw [noWord] at isWord
    exact absurd isWord (by simp)
  · exact noHyphen isHyphen

/-- The line of a declaration is read back, whatever its text is. -/
theorem read?_line (declaration : Declaration) :
    read? declaration.line = some declaration.parts := by
  obtain ⟨name, text⟩ := declaration
  have written : (line ⟨name, text⟩).toList = "  --".toList ++
      ((name.text.toList ++ ':' :: ' ' :: text.toList) ++ [';']) := by
    simp [line]
  have start : (line ⟨name, text⟩).toList.dropPrefix? "  --".toList =
      some ((name.text.toList ++ ':' :: ' ' :: text.toList) ++ [';']) := by
    rw [written]
    exact List.dropPrefix?_append_of_beq _ (by decide)
  have ending : ((name.text.toList ++ ':' :: ' ' :: text.toList) ++ [';']).dropSuffix? [';'] =
      some (name.text.toList ++ ':' :: ' ' :: text.toList) :=
    List.dropSuffix?_eq_some_iff.2 ⟨[';'], rfl, by decide⟩
  have cut := cut?_append (notMem_name (by decide) (by decide) name) text.toList
  simp only [read?, start, ending, cut, bind, Option.bind, pure, String.ofList_toList, parts]

theorem parts_injective : Function.Injective parts := by
  rintro ⟨name, text⟩ ⟨name', text'⟩ same
  obtain ⟨sameName, sameText⟩ := Prod.mk.inj same
  obtain rfl := CanonicalName.ext_text sameName
  obtain rfl : text = text' := sameText
  rfl

end Declaration

/-! ## Stylesheets -/

/-- The names and texts of the declarations of a stylesheet, which stand between its first line and its
last one. -/
def Stylesheet.read? (css : String) : Option (List (String × String)) := do
  let lines ← linesOf? css
  lines.tail.dropLast.mapM Declaration.read?

namespace TokenMap

/-- No value has a text of several lines. -/
def SingleLined (tokens : TokenMap) : Prop :=
  ∀ token ∈ tokens.entries, ∀ text, token.2.cssText? = some text → '\n' ∉ text.toList

/-- The tokens whose value is a string, a number or a boolean. -/
def written (tokens : TokenMap) : List (CanonicalName × Json) :=
  tokens.entries.filter fun token =>
    decide (token.2.kind = .string ∨ token.2.kind = .number ∨ token.2.kind = .boolean)

/-- A line is that of a token: it declares the text of its value under its name, and both are read
from it. -/
def IsLineOf (token : CanonicalName × Json) (line : String) : Prop :=
  ∃ text, token.2.cssText? = some text ∧
    line = "  --" ++ token.1.text ++ ": " ++ text ++ ";" ∧
    Declaration.read? line = some (token.1.text, text)

theorem isLineOf_line {token : CanonicalName × Json} {declaration : Declaration}
    (declared : Declaration.ofToken? token = some declaration) :
    IsLineOf token declaration.line := by
  obtain ⟨text, isText, rfl⟩ := Option.map_eq_some_iff.1 declared
  exact ⟨text, isText, rfl, Declaration.read?_line ⟨token.1, text⟩⟩

theorem isSome_ofToken?_iff (token : CanonicalName × Json) :
    (Declaration.ofToken? token).isSome ↔
      token.2.kind = .string ∨ token.2.kind = .number ∨ token.2.kind = .boolean := by
  rw [← Json.exists_cssText?_iff, Declaration.ofToken?, Option.isSome_map,
    Option.isSome_iff_exists]

/-- The declarations have one line for each token that is written, in order. -/
theorem forall₂_isLineOf (tokens : TokenMap) :
    List.Forall₂ IsLineOf tokens.written (tokens.declarations.map Declaration.line) := by
  rw [written, declarations]
  induction tokens.entries with
  | nil => exact .nil
  | cons token rest ih =>
      cases declared : Declaration.ofToken? token with
      | none =>
          have unwritten := (isSome_ofToken?_iff token).not.1 (by simp [declared])
          rwa [List.filter_cons_of_neg (by simpa using unwritten),
            List.filterMap_cons_none declared]
      | some declaration =>
          have isWritten := (isSome_ofToken?_iff token).1 (by simp [declared])
          rw [List.filter_cons_of_pos (by simpa using isWritten),
            List.filterMap_cons_some declared, List.map_cons]
          exact .cons (isLineOf_line declared) ih

/-- Where no text has several lines, the lines of the stylesheet are lines. -/
theorem SingleLined.lines {tokens : TokenMap} (single : tokens.SingleLined) :
    ∀ line ∈ Stylesheet.lines tokens.declarations, '\n' ∉ line.toList := by
  intro line member
  rw [Stylesheet.lines, List.cons_append, List.mem_cons, List.mem_append, List.mem_singleton] at member
  rcases member with rfl | inner | rfl
  · decide
  · obtain ⟨declaration, isDeclared, rfl⟩ := List.mem_map.1 inner
    obtain ⟨token, isToken, declared⟩ := List.mem_filterMap.1 isDeclared
    obtain ⟨text, isText, rfl⟩ := Option.map_eq_some_iff.1 declared
    have noName := Declaration.notMem_name (c := '\n') (by decide) (by decide) token.1
    simp [Declaration.line, noName, single token isToken text isText]
  · decide

theorem linesOf?_stylesheet {tokens : TokenMap} (single : tokens.SingleLined) :
    Stylesheet.linesOf? tokens.stylesheet = some (Stylesheet.lines tokens.declarations) :=
  Stylesheet.linesOf?_joinLines single.lines

/-- A stylesheet is read back if no text has several lines. -/
theorem read?_stylesheet {tokens : TokenMap} (single : tokens.SingleLined) :
    Stylesheet.read? tokens.stylesheet = some (tokens.declarations.map Declaration.parts) := by
  have each (declarations : List Declaration) :
      (declarations.map Declaration.line).mapM Declaration.read? =
        some (declarations.map Declaration.parts) := by
    induction declarations with
    | nil => rfl
    | cons declaration rest ih => simp [Declaration.read?_line, ih]
  rw [Stylesheet.read?, linesOf?_stylesheet single, Stylesheet.lines]
  simp [each]

/-- **A stylesheet is read back**, if no text of a value has several lines. It is its first line, a line
for each token whose value is a string, a number or a boolean, in their order, and its last line; and
from each of these lines the name of the token and the text of its value are read. So stylesheets are
the same only for tokens with the same declarations, whatever their texts are. -/
theorem stylesheets_are_read_back (tokens : TokenMap) (single : tokens.SingleLined) :
    (∃ inner, Stylesheet.linesOf? tokens.stylesheet =
        some (":root \x7b" :: inner ++ ["\x7d"]) ∧
      List.Forall₂ IsLineOf tokens.written inner) ∧
    Stylesheet.read? tokens.stylesheet = some (tokens.entries.filterMap fun token =>
      token.2.cssText?.map fun text => (token.1.text, text)) ∧
    ∀ other : TokenMap, other.SingleLined → other.stylesheet = tokens.stylesheet →
      other.declarations = tokens.declarations := by
  refine ⟨⟨_, linesOf?_stylesheet single, forall₂_isLineOf tokens⟩, ?_, ?_⟩
  · rw [read?_stylesheet single, declarations, List.map_filterMap]
    congr 2
    funext token
    rw [Declaration.ofToken?, Option.map_map]
    rfl
  · intro other single' same
    have read := read?_stylesheet single'
    rw [same, read?_stylesheet single] at read
    exact (List.map_injective_iff.2 Declaration.parts_injective (Option.some.inj read)).symm

/-- Tokens of which one has a text that looks like the end of its declaration and a further one. -/
def delimiterTokens : TokenMap where
  entries := [(⟨"a", by decide⟩, .string "1; \x7d --b: 2;"), (⟨"b", by decide⟩, .null),
    (⟨"c-1", by decide⟩, .bool true), (⟨"d", by decide⟩, .number (.integer 16))]
  distinct := by decide

/-- The further declaration is a part of the text, and the token without a text has no line. -/
theorem delimiters_in_texts_are_read_back :
    delimiterTokens.SingleLined ∧
    (∃ inner, Stylesheet.linesOf? delimiterTokens.stylesheet =
        some (":root \x7b" :: inner ++ ["\x7d"]) ∧
      List.Forall₂ IsLineOf delimiterTokens.written inner) ∧
    Stylesheet.read? delimiterTokens.stylesheet =
      some [("a", "1; \x7d --b: 2;"), ("c-1", "true"), ("d", "16")] ∧
    ∀ other : TokenMap, other.SingleLined → other.stylesheet = delimiterTokens.stylesheet →
      other.declarations = delimiterTokens.declarations := by
  have single : delimiterTokens.SingleLined := by
    intro token member text isText
    have each : ∀ token ∈ delimiterTokens.entries,
        (token.2.cssText?.all fun text => !text.toList.contains '\n') = true := by decide
    have free := each token member
    rw [isText] at free
    simpa using free
  obtain ⟨lines, read, same⟩ := stylesheets_are_read_back delimiterTokens single
  exact ⟨single, lines, read, same⟩

/-- With a text of two lines, one token has the stylesheet of two. -/
example :
    stylesheet ⟨[(⟨"a", by decide⟩, .string "1;\n  --b: 2")], by decide⟩ =
      stylesheet ⟨[(⟨"a", by decide⟩, .string "1"), (⟨"b", by decide⟩, .string "2")],
        by decide⟩ := by
  decide

end TokenMap

end DesignTokens
