/-!
# Tokens of a TOML text

A TOML text as a list of tokens: punctuation, line breaks, blanks, words without quotes, and strings.
Comments leave no token. There are four kinds of strings: in double quotes with escapes or in single
quotes without, on one line or over several lines.
-/

set_option autoImplicit false

namespace DesignTokens

/-- A token of a TOML text. -/
inductive TomlToken where
  | dot
  | equals
  | comma
  | openBracket
  | closeBracket
  | openBrace
  | closeBrace
  | blank
  | newline
  | word (text : List Char)
  /-- A string on one line, which may be a key. -/
  | string (text : String)
  /-- A string over several lines, which may not be a key. -/
  | longString (text : String)
deriving Repr, DecidableEq

namespace TomlToken

/-- Characters that may stand in strings and comments: the tab, and all but control characters. -/
def isPlain (c : Char) : Bool := c == '\t' || (0x20 ≤ c.toNat && c.toNat != 0x7F)

/-- Whether a character is a blank within a line. -/
def isBlank (c : Char) : Bool := c == ' ' || c == '\t'

/-! ## Escapes -/

/-- The value of a hexadecimal digit. -/
def hexValue? (c : Char) : Option Nat :=
  if c.isDigit then some (c.toNat - 0x30)
  else if 'A' ≤ c && c ≤ 'F' then some (c.toNat - 0x37)
  else if 'a' ≤ c && c ≤ 'f' then some (c.toNat - 0x57)
  else none

/-- The character with the code point of `digits` hexadecimal digits. -/
def codePoint? (digits : Nat) (cs : List Char) : Option Char := do
  let values ← (cs.take digits).mapM hexValue?
  if values.length < digits then none
  let n := values.foldl (fun n v => n * 16 + v) 0
  if n.isValidChar then some (Char.ofNat n) else none

/-- The character of an escape after its backslash, and the number of characters read. -/
def escape? : List Char → Option (Char × Nat)
  | 'b' :: _ => some ('\x08', 1)
  | 't' :: _ => some ('\t', 1)
  | 'n' :: _ => some ('\n', 1)
  | 'f' :: _ => some ('\x0c', 1)
  | 'r' :: _ => some ('\r', 1)
  | 'e' :: _ => some ('\x1b', 1)
  | '"' :: _ => some ('"', 1)
  | '\\' :: _ => some ('\\', 1)
  | 'x' :: rest => (codePoint? 2 rest).map fun c => (c, 3)
  | 'u' :: rest => (codePoint? 4 rest).map fun c => (c, 5)
  | 'U' :: rest => (codePoint? 8 rest).map fun c => (c, 9)
  | _ => none

/-- The number of blanks and line breaks after a backslash that ends a line. `ended` tells that a
line break has been read. -/
def continuation? (ended : Bool) : List Char → Option Nat
  | '\n' :: rest => (continuation? true rest).map (· + 1)
  | '\r' :: '\n' :: rest => (continuation? true rest).map (· + 2)
  | ' ' :: rest => (continuation? ended rest).map (· + 1)
  | '\t' :: rest => (continuation? ended rest).map (· + 1)
  | _ => if ended then some 0 else none

/-! ## Strings -/

/-- A kind of string: its quote, and whether there are escapes. -/
structure Quoting where
  quote : Char
  escapes : Bool

/-- Strings in double quotes. -/
def Quoting.basic : Quoting := ⟨'"', true⟩

/-- Strings in single quotes. -/
def Quoting.literal : Quoting := ⟨'\'', false⟩

/-- A part of a text with the number of characters it takes. -/
abbrev Part (α : Type) := Option (α × Nat)

/-- Puts characters before those of a part that is `n` characters further on. -/
def Part.add (front : List Char) (n : Nat) (part : Part (List Char)) : Part (List Char) :=
  part.map fun (cs, length) => (front ++ cs, length + n)

/-- A string on one line after its opening quote. `skip` characters belong to an escape. -/
def shortString (q : Quoting) : Nat → List Char → Part (List Char)
  | _, [] => none
  | skip + 1, _ :: rest => Part.add [] 1 (shortString q skip rest)
  | 0, c :: rest =>
      if c == q.quote then some ([], 1)
      else if q.escapes && c == '\\' then
        match escape? rest with
        | some (escaped, length) => Part.add [escaped] 1 (shortString q length rest)
        | none => none
      else if isPlain c then Part.add [c] 1 (shortString q 0 rest)
      else none

/-- The number of quotes at the start of a text. -/
def quoteRun (q : Quoting) (cs : List Char) : Nat := (cs.takeWhile (· == q.quote)).length

/-- A string over several lines after its opening quotes. Up to two quotes may stand right before
the closing ones. `skip` characters belong to an escape. -/
def longText (q : Quoting) : Nat → List Char → Part (List Char)
  | _, [] => none
  | skip + 1, _ :: rest => Part.add [] 1 (longText q skip rest)
  | 0, c :: rest =>
      let run := quoteRun q (c :: rest)
      -- The last three of up to five quotes close the string; those before belong to it.
      if 3 ≤ run then
        let extra := min (run - 3) 2
        some (List.replicate extra q.quote, extra + 3)
      else if q.escapes && c == '\\' then
        match escape? rest with
        | some (escaped, length) => Part.add [escaped] 1 (longText q length rest)
        | none =>
            match continuation? false rest with
            | some length => Part.add [] 1 (longText q length rest)
            | none => none
      else if c == '\n' || isPlain c || (c == '\r' && rest.head? == some '\n') then
        Part.add [c] 1 (longText q 0 rest)
      else none

/-- The length of a line break at the start of a text, if there is one. -/
def lineBreakLength : List Char → Nat
  | '\n' :: _ => 1
  | '\r' :: '\n' :: _ => 2
  | _ => 0

/-- The string after its first quote. A line break right after the opening quotes of a long string
does not belong to it. -/
def readString (q : Quoting) (rest : List Char) : Part TomlToken :=
  if 2 ≤ quoteRun q rest then
    let opened := rest.drop 2
    let lead := lineBreakLength opened
    (longText q 0 (opened.drop lead)).map fun (cs, length) =>
      (.longString (String.ofList cs), length + lead + 3)
  else (shortString q 0 rest).map fun (cs, length) => (.string (String.ofList cs), length + 1)

/-! ## Tokens -/

/-- Characters that end a word. -/
def endsWord (c : Char) : Bool :=
  ['.', '=', ',', '[', ']', '\x7b', '\x7d', ' ', '\t', '#', '\r', '\n', '"', '\''].contains c

/-- The length of a comment after its `#`, unless a character in it may not be there. -/
def commentLength? (rest : List Char) : Option Nat :=
  let comment := rest.takeWhile fun c => c != '\n' && c != '\r'
  if comment.all isPlain then some comment.length else none

/-- The token that starts with a given character, none for a comment, and its length. -/
def read (c : Char) (rest : List Char) : Part (Option TomlToken) :=
  match c with
  | '.' => some (some .dot, 1)
  | '=' => some (some .equals, 1)
  | ',' => some (some .comma, 1)
  | '[' => some (some .openBracket, 1)
  | ']' => some (some .closeBracket, 1)
  | '\x7b' => some (some .openBrace, 1)
  | '\x7d' => some (some .closeBrace, 1)
  | ' ' => some (some .blank, 1)
  | '\t' => some (some .blank, 1)
  | '\n' => some (some .newline, 1)
  | '\r' => if rest.head? == some '\n' then some (some .newline, 2) else none
  | '#' => (commentLength? rest).map fun length => (none, length + 1)
  | '"' => (readString .basic rest).map fun (token, length) => (some token, length)
  | '\'' => (readString .literal rest).map fun (token, length) => (some token, length)
  | c =>
      let word := c :: rest.takeWhile (!endsWord ·)
      some (some (.word word), word.length)

/-- The tokens of a text. `skip` characters belong to a token that has been read. -/
def readAllFrom : Nat → List Char → Option (List TomlToken)
  | _, [] => some []
  | skip + 1, _ :: rest => readAllFrom skip rest
  | 0, c :: rest => do
      let (token, length) ← read c rest
      return token.toList ++ (← readAllFrom (length - 1) rest)

/-- The mark of the byte order that may stand before a text. -/
def byteOrderMark : Char := '\uFEFF'

/-- The tokens of a text; none if it is no sequence of tokens. -/
def readAll (text : String) : Option (List TomlToken) :=
  match text.toList with
  | c :: rest => if c == byteOrderMark then readAllFrom 0 rest else readAllFrom 0 (c :: rest)
  | [] => some []

end TomlToken

end DesignTokens
