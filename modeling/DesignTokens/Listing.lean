import DesignTokens.Json.Printer
import DesignTokens.Stylesheet

/-!
# Listing tokens

The final tokens as a table of names and CSS texts, or as one JSON object a line. A long name is cut
in the table so that the texts stay in one column.
-/

set_option autoImplicit false

namespace DesignTokens.Listing

/-- The width of the column of names. -/
def nameWidth : Nat := 40

/-- What stands for the end of a name that is cut. -/
def ellipsis : List Char := ['.', '.', '.']

/-- The characters of the first `size` octets of a text; none if a character stands across their end,
or if the text has fewer octets. -/
def firstOctets? : Nat → List Char → Option (List Char)
  | 0, _ => some []
  | _ + 1, [] => none
  | size + 1, c :: rest =>
      if c.utf8Size ≤ size + 1 then
        (firstOctets? (size + 1 - c.utf8Size) rest).map (c :: ·)
      else none

/-- Cuts a text of more than `width` octets, to leave room for the ellipsis; none if it cannot be cut
there. -/
def truncate? (width : Nat) (text : String) : Option (List Char) :=
  -- Whether a name is cut depends on its octets, how far it is filled on its characters.
  if text.utf8ByteSize ≤ width then some text.toList
  else (firstOctets? (width - ellipsis.length) text.toList).map (· ++ ellipsis)

/-- Fills a text with blanks up to `width` characters. -/
def padRight (width : Nat) (cs : List Char) : List Char :=
  cs ++ List.replicate (width - cs.length) ' '

/-- A line of two columns. -/
def columns (first : List Char) (second : String) : String :=
  String.ofList (padRight nameWidth first ++ ' ' :: second.toList)

/-- The text shown for a value that has no declaration. -/
def notEmitted : String := "(not emitted)"

/-- The row of a token; none if its name cannot be cut. -/
def tableRow? (name : String) (value : Json) : Option String :=
  (truncate? nameWidth name).map fun first => columns first (value.cssText?.getD notEmitted)

/-- The row of a token as it is shown: nothing of it if its name cannot be cut. -/
def tableRow (name : String) (value : Json) : String := (tableRow? name value).getD ""

/-- The heading of the table. -/
def header : List String :=
  [columns "NAME".toList "VALUE", String.ofList (List.replicate 60 '-')]

/-- The table of the tokens. -/
def table (tokens : TokenMap) : List String :=
  header ++ tokens.entries.map fun token => tableRow token.1.text token.2

/-- A token as a JSON object. -/
def tokenJson (token : CanonicalName × Json) : Json :=
  .object [("name", .string token.1.text), ("value", token.2)]

/-- The tokens as JSON objects, one a line. -/
def jsonLines (tokens : TokenMap) : List String :=
  tokens.entries.map fun token => (tokenJson token).compact

end DesignTokens.Listing
