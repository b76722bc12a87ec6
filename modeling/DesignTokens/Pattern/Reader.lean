import DesignTokens.Pattern.Basic

/-!
# Reading patterns

The written form of patterns: literals, `.`, classes in brackets with nested classes and set
operations, the classes `\d`, `\s` and `\w`, assertions, groups, alternatives, repetitions, and the
flags `i`, `m`, `s`, `x`, `u`, `R` and `U`. There is no look-around and no back-reference.

The classes `\p` and `\P` of Unicode properties are left out: a pattern with one is refused here. So
are the limits on the size of a pattern once it is compiled and on the depth to which its parts are
nested: here a pattern may be of any size and depth.

A pattern is read by recursive descent. The depth of the descent is bounded by the length of the
pattern, since every level takes a character.
-/

set_option autoImplicit false

namespace DesignTokens

namespace PatternReader

/-- The flags in force. -/
structure Flags where
  ignoreCase : Bool
  multiLine : Bool
  dotAll : Bool
  crlf : Bool
  ignoreBlank : Bool
  ascii : Bool

/-- The flags at the start of a pattern. -/
def Flags.initial : Flags := ⟨false, false, false, false, false, false⟩

/-- The text still to read, the flags in force, and the names of the groups so far. -/
structure State where
  rest : List Char
  flags : Flags
  names : List (List Char)

/-- A step of reading; it fails on a text that is no pattern. -/
abbrev Reader := StateT State Option

/-! ## Characters -/

/-- Drops what a pattern with the flag `x` leaves out: white space, and comments up to the end of a
line. -/
def dropIgnored : (inComment : Bool) → List Char → List Char
  | _, [] => []
  | true, c :: rest => dropIgnored (c != '\n') rest
  | false, c :: rest =>
      if Text.isBlank c then dropIgnored false rest
      else if c == '#' then dropIgnored true rest
      else c :: rest

/-- The next character. -/
def peek : Reader (Option Char) := do return (← get).rest.head?

/-- The next character; fails at the end. -/
def next : Reader Char := do
  match ← peek with
  | some c => return c
  | none => failure

/-- Passes a character. -/
def advance : Reader Unit := modify fun s => { s with rest := s.rest.drop 1 }

/-- Passes what the flags leave out. -/
def skip : Reader Unit :=
  modify fun s => if s.flags.ignoreBlank then { s with rest := dropIgnored false s.rest } else s

/-- Passes a character and what the flags leave out after it. -/
def advanceSkip : Reader Unit := do advance; skip

/-- Passes a character, which is given, and what the flags leave out after it. -/
def expect (c : Char) : Reader Unit := do
  if (← next) == c then advanceSkip else failure

/-- Passes a given text if it comes next. -/
def passIf (text : List Char) : Reader Bool := do
  let s ← get
  if text.isPrefixOf s.rest then
    set { s with rest := s.rest.drop text.length }
    return true
  else return false

/-! ## Numbers -/

/-- A run of characters of a class, with what the flags leave out between them, and the rest. -/
def takeRun (ignoreBlank : Bool) (p : Char → Bool) : Nat → List Char → List Char × List Char
  | 0, cs => ([], cs)
  | _, [] => ([], [])
  | n + 1, c :: rest =>
      if p c then
        let (run, after) := takeRun ignoreBlank p n (if ignoreBlank then dropIgnored false rest else rest)
        (c :: run, after)
      else ([], c :: rest)

/-- Passes a run of characters of a class and gives it. -/
def run (p : Char → Bool) : Reader (List Char) := do
  let s ← get
  let (found, rest) := takeRun s.flags.ignoreBlank p s.rest.length s.rest
  set { s with rest }
  return found

/-- The value of a run of digits in a base. -/
def valueOf (base : Nat) (digits : List Char) : Nat :=
  digits.foldl (fun n c => n * base + (if c.isDigit then c.toNat - 48 else c.toLower.toNat - 87)) 0

/-- The limit of a repetition count: an unsigned integer of 32 bits. -/
def countLimit : Nat := Nat.pow 2 32

/-- A repetition count, with white space around it. -/
def decimal : Reader Nat := do
  modify fun s => { s with rest := s.rest.dropWhile Text.isBlank }
  let digits ← run Char.isDigit
  let _ ← run Text.isBlank
  let n := valueOf 10 digits
  if digits.isEmpty || countLimit ≤ n then failure else return n

/-- Whether a character is a hexadecimal digit. -/
def isHexDigit (c : Char) : Bool :=
  c.isDigit || ('a' ≤ c && c ≤ 'f') || ('A' ≤ c && c ≤ 'F')

/-- The character of a code point. -/
def charOf (n : Nat) : Reader Char := if n.isValidChar then return Char.ofNat n else failure

/-- A fixed number of hexadecimal digits. -/
def hexDigits : Nat → Reader (List Char)
  | 0 => return []
  | n + 1 => do
      let c ← next
      if !isHexDigit c then failure
      advanceSkip
      return c :: (← hexDigits n)

/-- The character of a code point that is written in `count` digits or in braces. -/
def hexEscape (count : Nat) : Reader Char := do
  advanceSkip
  if (← next) == '\x7b' then
    advanceSkip
    let digits ← run isHexDigit
    expect '\x7d'
    if digits.isEmpty then failure
    charOf (valueOf 16 digits)
  else charOf (valueOf 16 (← hexDigits count))

/-! ## Escapes -/

/-- What a single item of a pattern stands for. -/
inductive Item where
  | literal (c : Char)
  | anyChar
  | charClass (set : CharSet)
  | condition (a : Assertion)

/-- Characters that have a meaning of their own in a pattern. -/
def isMeta (c : Char) : Bool := "\\.+*?()|[]\x7b\x7d^$#&-~".toList.contains c

/-- Characters that stand for themselves after a backslash: ASCII, and neither letter nor digit. -/
def isEscapable (c : Char) : Bool :=
  isMeta c || (c.toNat < 128 && !c.isAlphanum && c != '<' && c != '>')

/-- The ASCII digits. -/
def asciiDigits : CharSet := .ranges [('0', '9')]

/-- The ASCII white space. -/
def asciiBlanks : CharSet := .ranges [('\t', '\r'), (' ', ' ')]

/-- The ASCII word characters. -/
def asciiWords : CharSet := .ranges [('0', '9'), ('A', 'Z'), ('_', '_'), ('a', 'z')]

/-- The class of a letter after a backslash. With ASCII classes only, a complement is refused: it
would have members that are no whole characters. -/
def letterClass (ascii : Bool) : Char → Option CharSet
  | 'd' => some (if ascii then asciiDigits else .digit)
  | 's' => some (if ascii then asciiBlanks else .blank)
  | 'w' => some (if ascii then asciiWords else .word)
  | 'D' => if ascii then none else some (.complement .digit)
  | 'S' => if ascii then none else some (.complement .blank)
  | 'W' => if ascii then none else some (.complement .word)
  | _ => none

/-- Whether a character can stand in the name of a word boundary. -/
def isBoundaryChar (c : Char) : Bool := c.isAlpha || c == '-'

/-- A word boundary after its `b`: a name in braces tells which one. Braces that do not start with
a name are a repetition. -/
def boundary (ascii : Bool) : Reader Assertion := do
  if (← peek) != some '\x7b' then return .wordBoundary ascii
  let opened ← get
  advanceSkip
  -- Braces that start otherwise are a repetition of the word boundary.
  if !isBoundaryChar (← next) then
    set opened
    return .wordBoundary ascii
  let name ← run isBoundaryChar
  if (← next) != '\x7d' then failure
  advance
  match String.ofList name with
  | "start" => return .wordStart ascii
  | "end" => return .wordEnd ascii
  | "start-half" => return .wordStartHalf ascii
  | "end-half" => return .wordEndHalf ascii
  | _ => failure

/-- An escape, from its backslash on. -/
def escape : Reader Item := do
  let ascii := (← get).flags.ascii
  advance
  let c ← next
  match c with
  | 'x' => return .literal (← hexEscape 2)
  | 'u' => return .literal (← hexEscape 4)
  | 'U' => return .literal (← hexEscape 8)
  | _ =>
      advance
      if let some set := letterClass ascii c then return .charClass set
      if isEscapable c then return .literal c
      match c with
      | 'a' => return .literal '\x07'
      | 'f' => return .literal '\x0c'
      | 't' => return .literal '\t'
      | 'n' => return .literal '\n'
      | 'r' => return .literal '\r'
      | 'v' => return .literal '\x0b'
      | 'A' => return .condition .textStart
      | 'z' => return .condition .textEnd
      | 'b' => return .condition (← boundary ascii)
      | 'B' => return .condition (.noWordBoundary ascii)
      | '<' => return .condition (.wordStart ascii)
      | '>' => return .condition (.wordEnd ascii)
      | _ => failure

/-! ## Classes in brackets -/

/-- The operations between the parts of a class. -/
inductive SetOperation where
  | intersection
  | difference
  | symmetricDifference

/-- A set with the characters that differ in case, where the flags ask for them. -/
def foldCase (flags : Flags) (set : CharSet) : CharSet :=
  if flags.ignoreCase then .anyCase flags.ascii set else set

/-- A literal as a set; beyond ASCII it is refused where only ASCII is meant. -/
def literalSet (flags : Flags) (c : Char) : Reader CharSet :=
  if flags.ascii && 128 ≤ c.toNat then failure else return .char c

/-- The classes that are named between `[:` and `:]`. -/
def namedClass : String → Option (List (Char × Char))
  | "alnum" => some [('0', '9'), ('A', 'Z'), ('a', 'z')]
  | "alpha" => some [('A', 'Z'), ('a', 'z')]
  | "ascii" => some [('\x00', '\x7f')]
  | "blank" => some [('\t', '\t'), (' ', ' ')]
  | "cntrl" => some [('\x00', '\x1f'), ('\x7f', '\x7f')]
  | "digit" => some [('0', '9')]
  | "graph" => some [('!', '~')]
  | "lower" => some [('a', 'z')]
  | "print" => some [(' ', '~')]
  | "punct" => some [('!', '/'), (':', '@'), ('[', '\x60'), ('\x7b', '~')]
  | "space" => some [('\t', '\t'), ('\n', '\n'), ('\x0b', '\x0b'), ('\x0c', '\x0c'), ('\r', '\r'), (' ', ' ')]
  | "upper" => some [('A', 'Z')]
  | "word" => some [('0', '9'), ('A', 'Z'), ('_', '_'), ('a', 'z')]
  | "xdigit" => some [('0', '9'), ('A', 'F'), ('a', 'f')]
  | _ => none

/-- A named class, if one is written here. -/
def namedClass? : Reader (Option CharSet) := do
  let s ← get
  match s.rest with
  | '[' :: ':' :: body =>
      let (negated, named) := match body with
        | '^' :: named => (true, named)
        | named => (false, named)
      let name := named.takeWhile (· != ':')
      match named.dropWhile (· != ':'), namedClass (String.ofList name) with
      | ':' :: ']' :: rest, some ranges =>
          if negated && s.flags.ascii then failure
          set { s with rest }
          return some (if negated then .complement (.ranges ranges) else .ranges ranges)
      | _, _ => return none
  | _ => return none

/-- An item of a class. -/
def classItem : Reader Item := do
  let c ← next
  if c == '\\' then escape
  else
    advance
    return .literal c

/-- A character or a class as a member of a class. -/
def memberSet (flags : Flags) : Item → Reader CharSet
  | .literal c => literalSet flags c
  | .charClass set => return set
  | _ => failure

/-- Whether the next character is a hyphen that stands between the ends of a range. -/
def isRangeHyphen (s : State) : Bool :=
  match s.rest with
  | '-' :: rest =>
      let after := (if s.flags.ignoreBlank then dropIgnored false rest else rest).head?
      after != some ']' && after != some '-'
  | _ => false

/-- A member of a class: a character, a class, or a range. -/
def classRange : Reader CharSet := do
  let flags := (← get).flags
  let first ← classItem
  skip
  let _ ← next
  if isRangeHyphen (← get) then
    advanceSkip
    let second ← classItem
    -- Only characters can be the ends of a range.
    match first, second with
    | .literal low, .literal high =>
        let _ ← literalSet flags low
        let _ ← literalSet flags high
        if low ≤ high then return .ranges [(low, high)] else failure
    | _, _ => failure
  else memberSet flags first

/-- The hyphens at the start of a class, as many as `n`, which stand for themselves. -/
def leadingHyphens : Nat → CharSet → Reader CharSet
  | 0, set => return set
  | n + 1, set => do
      if (← next) == '-' then
        advanceSkip
        leadingHyphens n (.union set (.char '-'))
      else return set

/-- The value of the members so far, joined to the parts before them by the last operation. -/
def joinParts (flags : Flags) (left : Option (SetOperation × CharSet)) (members : CharSet) :
    CharSet :=
  match left with
  | none => members
  | some (.intersection, set) => .inter (foldCase flags set) (foldCase flags members)
  | some (.difference, set) => .difference (foldCase flags set) (foldCase flags members)
  | some (.symmetricDifference, set) =>
      .symmetricDifference (foldCase flags set) (foldCase flags members)

/-- The operation that comes next in a class. -/
def operation? : Reader (Option SetOperation) := do
  if ← passIf ['&', '&'] then return some .intersection
  if ← passIf ['-', '-'] then return some .difference
  if ← passIf ['~', '~'] then return some .symmetricDifference
  return none

mutual

/-- A class from its opening bracket on. -/
def bracketed (inner : Bool) : Nat → Reader CharSet
  | 0 => failure
  | n + 1 => do
      let named ← if inner then namedClass? else pure none
      if let some set := named then return set
      let flags := (← get).flags
      expect '['
      let negated := (← next) == '^'
      if negated then advanceSkip
      let hyphens ← leadingHyphens (← get).rest.length .none
      let start ← match hyphens, ← next with
        | .ranges [], ']' => do
            advanceSkip
            pure (CharSet.char ']')
        | _, _ => pure hyphens
      let set := foldCase flags (← members n none start)
      if negated then
        if flags.ascii then failure
        return .complement set
      return set

/-- The members of a class up to its closing bracket. -/
def members : Nat → Option (SetOperation × CharSet) → CharSet → Reader CharSet
  | 0, _, _ => failure
  | n + 1, left, found => do
      skip
      let flags := (← get).flags
      match ← next with
      | '[' =>
          let set ← bracketed true n
          members n left (.union found set)
      | ']' =>
          advance
          return joinParts flags left found
      | _ =>
          match ← operation? with
          | some operation => members n (some (operation, joinParts flags left found)) .none
          | none =>
              let set ← classRange
              members n left (.union found set)

end

/-! ## Groups and flags -/

/-- Whether a character can stand in the name of a group. -/
def isNameChar (c : Char) : Bool :=
  c == '_' || c == '.' || c == '[' || c == ']' || (Text.isWord c && c != '_')

/-- Whether a character can start the name of a group. -/
def isNameStart (c : Char) : Bool := c == '_' || (Text.isWord c && !Text.isDigit c)

/-- The name of a group up to its closing angle bracket. No two groups have one name. -/
def groupName : Reader Unit := do
  let s ← get
  let name := s.rest.takeWhile (· != '>')
  match s.rest.dropWhile (· != '>'), name with
  | '>' :: rest, first :: others =>
      if isNameStart first && others.all isNameChar && !s.names.contains name then
        set { s with rest, names := name :: s.names }
      else failure
  | _, _ => failure

/-- Sets or clears a flag; fails on a letter that is none. -/
def setFlag (flags : Flags) (value : Bool) : Char → Option Flags
  | 'i' => some { flags with ignoreCase := value }
  | 'm' => some { flags with multiLine := value }
  | 's' => some { flags with dotAll := value }
  | 'U' => some flags
  | 'u' => some { flags with ascii := !value }
  | 'R' => some { flags with crlf := value }
  | 'x' => some { flags with ignoreBlank := value }
  | _ => none

/-- The flags after a run of flag letters, of which those after a hyphen are cleared. Each letter
stands once, and a letter follows the hyphen. -/
def applyFlags (flags : Flags) (seen : List Char) : List Char → Option Flags
  | [] => if seen.head? == some '-' then none else some flags
  | c :: rest =>
      if seen.contains c then none
      else if c == '-' then applyFlags flags (c :: seen) rest
      else (setFlag flags (!seen.contains '-') c).bind fun new => applyFlags new (c :: seen) rest

/-- Whether a character ends a run of flag letters. -/
def endsFlags (c : Char) : Bool := c == ':' || c == ')'

/-- A repetition of the pattern before it. -/
def repeatLast (items : List (Option Pattern)) (least : Nat) (most : Option Nat) :
    Reader (List (Option Pattern)) :=
  match items with
  | some last :: before => return some (.repeated last least most) :: before
  | _ => failure

/-- Passes the mark of a repetition that prefers few matches. -/
def passLazy : Reader Unit := do
  if (← peek) == some '?' then advance

/-- The counts of a repetition in braces. -/
def counts : Reader (Nat × Option Nat) := do
  advanceSkip
  let _ ← next
  let least ← decimal
  let most ← if (← next) == ',' then do
      advanceSkip
      if (← next) == '\x7d' then pure none
      else do
        let most ← decimal
        pure (some most)
    else pure (some least)
  expect '\x7d'
  passLazy
  match most with
  | some m => if m < least then failure else return (least, most)
  | none => return (least, none)

/-- The pattern of a single item. -/
def itemPattern (flags : Flags) : Item → Reader Pattern
  | .literal c => do return .one (foldCase flags (← literalSet flags c))
  | .anyChar =>
      if flags.ascii then failure
      else if flags.dotAll then return .one (.complement .none)
      else if flags.crlf then return .one (.complement (.ranges [('\n', '\n'), ('\r', '\r')]))
      else return .one (.complement (.char '\n'))
  | .charClass set => return .one set
  | .condition a => return .assertion a

/-- The pattern of items in reverse order. -/
def sequenceOf : List (Option Pattern) → Pattern
  | [] => .empty
  | items =>
      match items.reverse.filterMap id with
      | [] => .empty
      | first :: rest => rest.foldl .sequence first

/-! ## Patterns -/

/-- What the opening parenthesis of a group is followed by. -/
inductive Opening where
  /-- Flags for the rest of the enclosing group. -/
  | flags (flags : Flags)
  /-- A group with its own flags. -/
  | group (flags : Flags)

/-- The opening of a group after its parenthesis. -/
def opening : Reader Opening := do
  skip
  let s ← get
  if ["?=".toList, "?!".toList, "?<=".toList, "?<!".toList].any (·.isPrefixOf s.rest) then failure
  if (← passIf "?P<".toList) || (← passIf "?<".toList) then
    groupName
    return .group s.flags
  if ← passIf ['?'] then
    let s ← get
    let letters := s.rest.takeWhile (!endsFlags ·)
    match applyFlags s.flags [] letters, s.rest.dropWhile (!endsFlags ·) with
    | some flags, ')' :: rest =>
        if letters.isEmpty then failure
        set { s with rest }
        return .flags flags
    | some flags, ':' :: rest =>
        set { s with rest }
        return .group flags
    | _, _ => failure
  return .group s.flags

mutual

/-- Alternatives up to the end of a group. -/
def alternatives : Nat → Reader Pattern
  | 0 => failure
  | n + 1 => do
      let first ← branch n []
      if (← peek) == some '|' then
        advance
        return .either first (← alternatives n)
      else return first

/-- A branch of a group, from its next item on. The items so far are in reverse order, with
`none` for flags, which cannot be repeated. -/
def branch : Nat → List (Option Pattern) → Reader Pattern
  | 0, _ => failure
  | n + 1, items => do
      skip
      let flags := (← get).flags
      match ← peek with
      | none => return sequenceOf items
      | some '|' => return sequenceOf items
      | some ')' => return sequenceOf items
      | some '(' =>
          advance
          match ← opening with
          | .flags new =>
              modify fun s => { s with flags := new }
              branch n (none :: items)
          | .group new =>
              modify fun s => { s with flags := new }
              let inner ← alternatives n
              if (← next) != ')' then failure
              advance
              -- Flags that were set inside the group end with it.
              modify fun s => { s with flags }
              branch n (some inner :: items)
      | some '[' =>
          let set ← bracketed false n
          branch n (some (.one set) :: items)
      | some '?' =>
          advance
          passLazy
          branch n (← repeatLast items 0 (some 1))
      | some '*' =>
          advance
          passLazy
          branch n (← repeatLast items 0 none)
      | some '+' =>
          advance
          passLazy
          branch n (← repeatLast items 1 none)
      | some '\x7b' =>
          let (least, most) ← counts
          branch n (← repeatLast items least most)
      | some '\\' =>
          let item ← escape
          branch n (some (← itemPattern flags item) :: items)
      | some '.' =>
          advance
          branch n (some (← itemPattern flags .anyChar) :: items)
      | some '^' =>
          advance
          let start := if flags.multiLine then Assertion.lineStart flags.crlf else .textStart
          branch n (some (.assertion start) :: items)
      | some '$' =>
          advance
          let stop := if flags.multiLine then Assertion.lineEnd flags.crlf else .textEnd
          branch n (some (.assertion stop) :: items)
      | some c =>
          advance
          branch n (some (← itemPattern flags (.literal c)) :: items)

end

end PatternReader

/-- Reads a pattern. -/
def Pattern.parse? (text : String) : Option Pattern :=
  let chars := text.toList
  match (PatternReader.alternatives (2 * chars.length + 2)).run ⟨chars, .initial, []⟩ with
  | some (pattern, state) => if state.rest.isEmpty then some pattern else none
  | none => none

end DesignTokens
