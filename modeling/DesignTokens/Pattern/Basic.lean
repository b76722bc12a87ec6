import DesignTokens.Text.Blank
import DesignTokens.Text.Folding
import DesignTokens.Text.Word

/-!
# Patterns

Regular expressions over characters, and their search in a text. `Pattern.reach` gives the spots of
a text at which a match that starts at a given spot can end; a spot is seen as the character
before it and the text after it, so that assertions can look both ways. `Pattern.isIn` tells whether
a pattern matches anywhere in a text.
-/

set_option autoImplicit false

namespace DesignTokens

/-! ## Sets of characters -/

/-- A set of characters. -/
inductive CharSet where
  | ranges (ranges : List (Char × Char))
  | digit
  | blank
  | word
  | union (first second : CharSet)
  | inter (first second : CharSet)
  | complement (set : CharSet)
  /-- The characters that differ from a member at most in case. -/
  | anyCase (ascii : Bool) (set : CharSet)
deriving Repr, DecidableEq

namespace CharSet

/-- Whether a character belongs to a set. -/
def contains : CharSet → Char → Bool
  | .ranges rs, c => rs.any fun r => decide (r.1 ≤ c) && decide (c ≤ r.2)
  | .digit, c => Text.isDigit c
  | .blank, c => Text.isBlank c
  | .word, c => Text.isWord c
  | .union s t, c => s.contains c || t.contains c
  | .inter s t, c => s.contains c && t.contains c
  | .complement s, c => !s.contains c
  | .anyCase ascii s, c =>
      (if ascii then Text.asciiCaseVariants c else Text.caseVariants c).any fun v => s.contains v

/-- The empty set. -/
def none : CharSet := .ranges []

/-- The set of one character. -/
def char (c : Char) : CharSet := .ranges [(c, c)]

/-- The characters of the first set that are not in the second. -/
def difference (s t : CharSet) : CharSet := .inter s (.complement t)

/-- The characters of exactly one of two sets. -/
def symmetricDifference (s t : CharSet) : CharSet := difference (.union s t) (.inter s t)

theorem contains_char (c d : Char) : (char c).contains d = (c == d) := by
  have antisymm : (c ≤ d ∧ d ≤ c) ↔ c = d :=
    ⟨fun h => Char.le_antisymm h.1 h.2, fun h => h ▸ ⟨Char.le_refl c, Char.le_refl c⟩⟩
  rw [Bool.eq_iff_iff]
  simpa [char, contains] using antisymm

end CharSet

/-! ## Assertions -/

/-- A spot of a text: the character before it, if any, and the text after it. -/
structure Spot where
  before : Option Char
  rest : List Char
deriving Repr, DecidableEq

/-- A condition on a spot that takes no characters. -/
inductive Assertion where
  | textStart
  | textEnd
  | lineStart (crlf : Bool)
  | lineEnd (crlf : Bool)
  | wordBoundary (ascii : Bool)
  | noWordBoundary (ascii : Bool)
  | wordStart (ascii : Bool)
  | wordEnd (ascii : Bool)
  | wordStartHalf (ascii : Bool)
  | wordEndHalf (ascii : Bool)
deriving Repr, DecidableEq

namespace Assertion

/-- Whether a character stands there and is a word character. -/
def isWordAt (ascii : Bool) : Option Char → Bool
  | some c => if ascii then c.isAlphanum || c == '_' else Text.isWord c
  | none => false

/-- Whether an assertion holds at a spot. -/
def holds (a : Assertion) (spot : Spot) : Bool :=
  let next := spot.rest.head?
  match a with
  | .textStart => spot.before.isNone
  | .textEnd => spot.rest.isEmpty
  | .lineStart false => spot.before.isNone || spot.before == some '\n'
  | .lineStart true =>
      spot.before.isNone || spot.before == some '\n' ||
        (spot.before == some '\r' && next != some '\n')
  | .lineEnd false => spot.rest.isEmpty || next == some '\n'
  | .lineEnd true =>
      spot.rest.isEmpty || next == some '\r' || (next == some '\n' && spot.before != some '\r')
  | .wordBoundary ascii => isWordAt ascii spot.before != isWordAt ascii next
  | .noWordBoundary ascii => isWordAt ascii spot.before == isWordAt ascii next
  | .wordStart ascii => !isWordAt ascii spot.before && isWordAt ascii next
  | .wordEnd ascii => isWordAt ascii spot.before && !isWordAt ascii next
  | .wordStartHalf ascii => !isWordAt ascii spot.before
  | .wordEndHalf ascii => !isWordAt ascii next

end Assertion

/-! ## Patterns and their matches -/

/-- A regular expression. -/
inductive Pattern where
  | empty
  | one (set : CharSet)
  | assertion (condition : Assertion)
  | sequence (first second : Pattern)
  | either (first second : Pattern)
  /-- A pattern `least` to `most` times, or `least` times and more. -/
  | repeated (pattern : Pattern) (least : Nat) (most : Option Nat)
deriving Repr, DecidableEq

namespace Pattern

/-- The pattern of one text. -/
def literal : List Char → Pattern
  | [] => .empty
  | c :: rest => .sequence (.one (.char c)) (literal rest)

/-- Adds a spot to a list of spots of one text, unless it is there. -/
def addSpot (spots : List Spot) (spot : Spot) : List Spot :=
  if spots.any fun other => other.rest.length == spot.rest.length then spots else spots ++ [spot]

/-- The spots of a list, each once. -/
def distinct (spots : List Spot) : List Spot := spots.foldl addSpot []

/-- The spots after exactly `n` matches, from any of the given spots. -/
def exactly (step : Spot → List Spot) : Nat → List Spot → List Spot
  | 0, spots => spots
  | n + 1, spots => exactly step n (distinct (spots.flatMap step))

/-- The spots after up to `n` matches, from any of the given spots. -/
def upTo (step : Spot → List Spot) : Nat → List Spot → List Spot
  | 0, spots => spots
  | n + 1, spots => upTo step n (distinct (spots ++ spots.flatMap step))

/-- The spots after a repetition. After as many matches as there are spots, one more match changes
nothing: every way to a spot has then a match of the empty text in it. -/
def repetition (step : Spot → List Spot) (least : Nat) (most : Option Nat) (spot : Spot) :
    List Spot :=
  let bound := spot.rest.length + 1
  let required := exactly step (min least bound) [spot]
  match most with
  | none => upTo step bound required
  | some most => upTo step (min (most - least) bound) required

/-- The spots at which a match from a given spot can end. -/
def reach : Pattern → Spot → List Spot
  | .empty, spot => [spot]
  | .one set, spot =>
      match spot.rest with
      | c :: rest => if set.contains c then [⟨some c, rest⟩] else []
      | [] => []
  | .assertion condition, spot => if condition.holds spot then [spot] else []
  | .sequence p q, spot => distinct ((p.reach spot).flatMap fun middle => q.reach middle)
  | .either p q, spot => distinct (p.reach spot ++ q.reach spot)
  | .repeated p least most, spot => repetition (fun s => p.reach s) least most spot

/-- The spots of a text from one after a given character on. -/
def spotsFrom (before : Option Char) : List Char → List Spot
  | [] => [⟨before, []⟩]
  | c :: rest => ⟨before, c :: rest⟩ :: spotsFrom (some c) rest

/-- Whether a pattern matches anywhere in a text. -/
def isIn (pattern : Pattern) (text : String) : Bool :=
  (spotsFrom none text.toList).any fun spot => !(pattern.reach spot).isEmpty

/-! ## Equations -/

theorem reach_empty (spot : Spot) : empty.reach spot = [spot] := rfl

theorem reach_one_cons (set : CharSet) (before : Option Char) (c : Char) (rest : List Char) :
    (one set).reach ⟨before, c :: rest⟩ = if set.contains c then [⟨some c, rest⟩] else [] := rfl

theorem reach_one_nil (set : CharSet) (before : Option Char) :
    (one set).reach ⟨before, []⟩ = [] := rfl

theorem reach_assertion (condition : Assertion) (spot : Spot) :
    (assertion condition).reach spot = if condition.holds spot then [spot] else [] := rfl

theorem reach_sequence (p q : Pattern) (spot : Spot) :
    (sequence p q).reach spot = distinct ((p.reach spot).flatMap q.reach) := rfl

theorem reach_either (p q : Pattern) (spot : Spot) :
    (either p q).reach spot = distinct (p.reach spot ++ q.reach spot) := rfl

end Pattern

end DesignTokens
