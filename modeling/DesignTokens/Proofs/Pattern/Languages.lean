import DesignTokens.Proofs.Pattern.Matching
import Mathlib.Computability.Language

/-!
# The languages of patterns

A pattern without assertions takes the texts of a language, wherever it stands and whatever stands
around it (`Pattern.Takes`). Sequences and repetitions of patterns take products and repetitions of
languages, so the language of a pattern is read off its form. Between the assertions for the start and
the end of a text, a pattern is in exactly the texts of its language (`isIn_between_ends_iff`).
-/

set_option autoImplicit false

open scoped Computability

namespace DesignTokens

/-! ## Texts between spots -/

/-- The texts of one character of a set. -/
def CharSet.language (set : CharSet) : Language Char :=
  {text | ∃ c, set.contains c = true ∧ text = [c]}

/-- One character, and a text of a language behind it. -/
theorem CharSet.mem_char_mul (c : Char) (l : Language Char) (text : List Char) :
    text ∈ (char c).language * l ↔ ∃ rest ∈ l, text = c :: rest := by
  rw [Language.mem_mul]
  constructor
  · rintro ⟨_, ⟨d, same, rfl⟩, rest, member, rfl⟩
    rw [contains_char, beq_iff_eq] at same
    exact ⟨rest, member, by rw [same]; rfl⟩
  · rintro ⟨rest, member, rfl⟩
    exact ⟨[c], ⟨c, by rw [contains_char, beq_self_eq_true], rfl⟩, rest, member, rfl⟩

/-- Any number of characters of a set. -/
theorem CharSet.mem_kstar_language (set : CharSet) (text : List Char) :
    text ∈ set.language∗ ↔ ∀ c ∈ text, set.contains c = true := by
  rw [Language.mem_kstar]
  constructor
  · rintro ⟨parts, rfl, member⟩ c hc
    obtain ⟨part, isPart, inPart⟩ := List.mem_flatten.1 hc
    obtain ⟨d, contained, rfl⟩ := member part isPart
    rw [List.mem_singleton.1 inPart]
    exact contained
  · intro contained
    refine ⟨text.map fun c => [c], (List.flatMap_singleton' text).symm, ?_⟩
    intro part isPart
    obtain ⟨c, hc, rfl⟩ := List.mem_map.1 isPart
    exact ⟨c, contained c hc, rfl⟩

/-- One character of a set or more. -/
theorem CharSet.mem_run_language (set : CharSet) (text : List Char) :
    text ∈ set.language ^ 1 * set.language∗ ↔ text ≠ [] ∧ ∀ c ∈ text, set.contains c = true := by
  rw [pow_one, Language.mem_mul]
  simp only [mem_kstar_language]
  constructor
  · rintro ⟨_, ⟨c, first, rfl⟩, run, contained, rfl⟩
    exact ⟨List.cons_ne_nil c run, List.forall_mem_cons.2 ⟨first, contained⟩⟩
  · rintro ⟨nonempty, contained⟩
    obtain ⟨c, run, rfl⟩ := List.exists_cons_of_ne_nil nonempty
    obtain ⟨first, contained⟩ := List.forall_mem_cons.1 contained
    exact ⟨[c], ⟨c, first, rfl⟩, run, contained, rfl⟩

/-- A number of characters of a set. -/
theorem CharSet.mem_pow_language (set : CharSet) (n : Nat) (text : List Char) :
    text ∈ set.language ^ n ↔ text.length = n ∧ ∀ c ∈ text, set.contains c = true := by
  induction n generalizing text with
  | zero =>
      rw [pow_zero, Language.mem_one, List.length_eq_zero_iff]
      constructor
      · rintro rfl
        exact ⟨rfl, by simp⟩
      · exact And.left
  | succ n ih =>
      rw [pow_succ', Language.mem_mul]
      simp only [ih]
      constructor
      · rintro ⟨_, ⟨c, first, rfl⟩, run, ⟨rfl, contained⟩, rfl⟩
        exact ⟨rfl, List.forall_mem_cons.2 ⟨first, contained⟩⟩
      · rintro ⟨length, contained⟩
        obtain ⟨c, run, rfl⟩ := List.exists_cons_of_length_eq_add_one length
        obtain ⟨first, contained⟩ := List.forall_mem_cons.1 contained
        exact ⟨[c], ⟨c, first, rfl⟩, run, ⟨Nat.succ_inj.1 length, contained⟩, rfl⟩

/-- A spot is reached from another one over a text of a language. -/
def Spot.Over (language : Language Char) (start stop : Spot) : Prop :=
  ∃ taken ∈ language,
    start.rest = taken ++ stop.rest ∧ stop.before = taken.getLast?.or start.before

namespace Spot

variable (l m : Language Char) (start stop : Spot)

theorem over_one : Over 1 start stop ↔ stop = start := by
  constructor
  · rintro ⟨taken, member, rest, before⟩
    rw [(Language.mem_one taken).1 member] at rest before
    cases start
    cases stop
    simp_all
  · rintro rfl
    exact ⟨[], Language.nil_mem_one, rfl, rfl⟩

/-- A text of a product is taken in two parts. -/
theorem over_mul : Over (l * m) start stop ↔ ∃ middle, Over l start middle ∧ Over m middle stop := by
  constructor
  · rintro ⟨taken, member, rest, before⟩
    obtain ⟨first, inFirst, second, inSecond, rfl⟩ := Language.mem_mul.1 member
    refine ⟨⟨first.getLast?.or start.before, second ++ stop.rest⟩, ?_, ?_⟩
    · exact ⟨first, inFirst, by rw [rest, List.append_assoc], rfl⟩
    · refine ⟨second, inSecond, rfl, ?_⟩
      rw [before, List.getLast?_append, Option.or_assoc]
  · rintro ⟨middle, ⟨first, inFirst, rest, before⟩, second, inSecond, rest', before'⟩
    refine ⟨first ++ second, Language.append_mem_mul inFirst inSecond, ?_, ?_⟩
    · rw [rest, rest', List.append_assoc]
    · rw [before', before, List.getLast?_append, Option.or_assoc]

theorem over_add : Over (l + m) start stop ↔ Over l start stop ∨ Over m start stop := by
  constructor
  · rintro ⟨taken, inFirst | inSecond, rest, before⟩
    · exact Or.inl ⟨taken, inFirst, rest, before⟩
    · exact Or.inr ⟨taken, inSecond, rest, before⟩
  · rintro (⟨taken, inFirst, rest, before⟩ | ⟨taken, inSecond, rest, before⟩)
    · exact ⟨taken, Or.inl inFirst, rest, before⟩
    · exact ⟨taken, Or.inr inSecond, rest, before⟩

/-- Up to a number of further ones are taken as a power. -/
theorem over_one_add_pow (n : Nat) :
    Over ((1 + l) ^ n) start stop ↔ ∃ further ≤ n, Over (l ^ further) start stop := by
  induction n generalizing start with
  | zero => simp
  | succ n ih =>
      rw [pow_succ', over_mul]
      simp only [over_add, over_one, ih]
      constructor
      · rintro ⟨middle, rfl | first, further, bound, later⟩
        · exact ⟨further, Nat.le_succ_of_le bound, later⟩
        · refine ⟨further + 1, Nat.succ_le_succ bound, ?_⟩
          rw [pow_succ', over_mul]
          exact ⟨middle, first, later⟩
      · rintro ⟨further, bound, taken⟩
        cases further with
        | zero => exact ⟨start, Or.inl rfl, 0, Nat.zero_le n, taken⟩
        | succ further =>
            rw [pow_succ', over_mul] at taken
            obtain ⟨middle, first, later⟩ := taken
            exact ⟨middle, Or.inr first, further, Nat.le_of_succ_le_succ bound, later⟩

/-- A power and any further ones are taken as a higher power. -/
theorem over_pow_mul_kstar (least : Nat) :
    Over (l ^ least * l∗) start stop ↔ ∃ further, Over (l ^ (least + further)) start stop := by
  have parts (taken : List Char) :
      taken ∈ l ^ least * l∗ ↔ ∃ further, taken ∈ l ^ (least + further) := by
    rw [Language.kstar_eq_iSup_pow, Language.mul_iSup, Language.mem_iSup]
    simp only [pow_add]
  constructor
  · rintro ⟨taken, member, rest, before⟩
    obtain ⟨further, inPower⟩ := (parts taken).1 member
    exact ⟨further, taken, inPower, rest, before⟩
  · rintro ⟨further, taken, inPower, rest, before⟩
    exact ⟨taken, (parts taken).2 ⟨further, inPower⟩, rest, before⟩

end Spot

/-! ## Languages of patterns -/

namespace Pattern

/-- A pattern matches exactly over the texts of a language. -/
def Takes (pattern : Pattern) (language : Language Char) : Prop :=
  ∀ start stop, pattern.Matches start stop ↔ Spot.Over language start stop

theorem takes_empty : empty.Takes 1 := by
  intro start stop
  rw [Spot.over_one, Matches]

theorem takes_one (set : CharSet) : (one set).Takes set.language := by
  intro start stop
  constructor
  · rintro ⟨c, member, rest, before⟩
    exact ⟨[c], ⟨c, member, rfl⟩, rest, before⟩
  · rintro ⟨taken, ⟨c, member, rfl⟩, rest, before⟩
    exact ⟨c, member, rest, before⟩

section Composition

variable {p q : Pattern} {l m : Language Char}

theorem takes_sequence (hp : p.Takes l) (hq : q.Takes m) : (sequence p q).Takes (l * m) := by
  intro start stop
  rw [Spot.over_mul, Matches]
  simp only [hp start, hq _ stop]

theorem times_takes (hp : p.Takes l) (n : Nat) (start stop : Spot) :
    Times p.Matches n start stop ↔ Spot.Over (l ^ n) start stop := by
  induction n generalizing start with
  | zero => rw [Times.zero_iff, pow_zero, Spot.over_one]
  | succ n ih =>
      rw [Times.succ_iff, pow_succ', Spot.over_mul]
      simp only [hp start, ih]

/-- A repetition without a limit takes the required part and any further ones. -/
theorem takes_repeated (hp : p.Takes l) (least : Nat) :
    (repeated p least none).Takes (l ^ least * l∗) := by
  intro start stop
  rw [Spot.over_pow_mul_kstar, Matches]
  simp only [times_takes hp]
  simp

/-- A repetition with a limit takes the required part and further ones up to the limit. -/
theorem takes_counted (hp : p.Takes l) (least most : Nat) :
    (repeated p least (some most)).Takes (l ^ least * (1 + l) ^ (most - least)) := by
  intro start stop
  rw [Spot.over_mul, Matches]
  simp only [times_takes hp, Spot.over_one_add_pow, Option.mem_some_iff, forall_eq', pow_add,
    Spot.over_mul]
  constructor
  · rintro ⟨further, bound, middle, required, later⟩
    exact ⟨middle, required, further, bound, later⟩
  · rintro ⟨middle, required, further, bound, later⟩
    exact ⟨further, bound, middle, required, later⟩

/-- An optional pattern takes the empty text as well. -/
theorem takes_optional (hp : p.Takes l) : (repeated p 0 (some 1)).Takes (1 + l) := by
  have counted := takes_counted hp 0 1
  rwa [pow_zero, one_mul, pow_one] at counted

/-! ## Between the ends of a text -/

/-- A pattern matches exactly over the texts of a language at the start of a text. -/
def TakesAtStart (pattern : Pattern) (language : Language Char) : Prop :=
  ∀ start stop, pattern.Matches start stop ↔ start.before = none ∧ Spot.Over language start stop

theorem takesAtStart_textStart : (assertion .textStart).TakesAtStart 1 := by
  intro start stop
  rw [Spot.over_one, Matches]
  simp [Assertion.holds]

theorem takesAtStart_sequence (hp : p.TakesAtStart l) (hq : q.Takes m) :
    (sequence p q).TakesAtStart (l * m) := by
  intro start stop
  rw [Spot.over_mul, Matches]
  simp only [hp start, hq _ stop, and_assoc, exists_and_left]

/-- A pattern at the start that is bound to the end of a text is in the texts of its language only. -/
theorem isIn_to_end_iff (hp : p.TakesAtStart l) (text : String) :
    (sequence p (assertion .textEnd)).isIn text = true ↔ text.toList ∈ l := by
  rw [isIn_iff]
  constructor
  · rintro ⟨start, stop, ⟨skipped, split, before⟩, last, isP, holdsEnd, rfl⟩
    obtain ⟨atStart, taken, member, rest, -⟩ := (hp start stop).1 isP
    -- Nothing is skipped before the start of the text, and nothing is left at its end.
    have nothing_left : stop.rest = [] := by simpa [Assertion.holds] using holdsEnd
    rw [atStart, Option.or_none] at before
    rw [List.getLast?_eq_none_iff.1 before.symm, List.nil_append] at split
    rw [nothing_left, List.append_nil] at rest
    rw [show text.toList = start.rest from split, rest]
    exact member
  · intro member
    let start : Spot := ⟨none, text.toList⟩
    let stop : Spot := ⟨text.toList.getLast?, []⟩
    have whole : Spot.Over l start stop :=
      ⟨text.toList, member, (List.append_nil _).symm, (Option.or_none).symm⟩
    exact ⟨start, stop, Spot.Follows.refl start, stop, (hp start stop).2 ⟨rfl, whole⟩, rfl, rfl⟩

/-- **Between the ends of a text a pattern is in the texts of its language only.** Here the pattern is
written in two parts. -/
theorem isIn_between_ends_iff (hp : p.Takes l) (hq : q.Takes m) (text : String) :
    (sequence (sequence (sequence (assertion .textStart) p) q) (assertion .textEnd)).isIn text = true ↔
      text.toList ∈ l * m := by
  have body := takesAtStart_sequence (takesAtStart_sequence takesAtStart_textStart hp) hq
  rw [isIn_to_end_iff body, one_mul]

/-- A pattern that is bound to the start of a text is in the texts with a start of its language. -/
theorem isIn_from_start_iff (hp : p.Takes l) (text : String) :
    (sequence (assertion .textStart) p).isIn text = true ↔ ∃ taken ∈ l, taken <+: text.toList := by
  rw [isIn_iff]
  constructor
  · rintro ⟨start, stop, ⟨skipped, split, before⟩, middle, ⟨holds, rfl⟩, isP⟩
    have nothing_before : middle.before = none := by simpa [Assertion.holds] using holds
    rw [nothing_before, Option.or_none] at before
    rw [List.getLast?_eq_none_iff.1 before.symm, List.nil_append] at split
    obtain ⟨taken, member, rest, -⟩ := (hp middle stop).1 isP
    exact ⟨taken, member, stop.rest, (rest.symm.trans split.symm)⟩
  · rintro ⟨taken, member, rest, split⟩
    let start : Spot := ⟨none, text.toList⟩
    have isP : p.Matches start ⟨taken.getLast?, rest⟩ :=
      (hp start _).2 ⟨taken, member, split.symm, (Option.or_none).symm⟩
    exact ⟨start, _, Spot.Follows.refl start, start, ⟨rfl, rfl⟩, isP⟩

end Composition

/-- The pattern of a text takes this text only. -/
theorem takes_literal (cs : List Char) : (literal cs).Takes ({cs} : Language Char) := by
  induction cs with
  | nil => exact takes_empty
  | cons c rest ih =>
      have whole : (CharSet.char c).language * ({rest} : Language Char) = {c :: rest} := by
        ext text
        rw [CharSet.mem_char_mul]
        exact exists_eq_left
      have both := takes_sequence (takes_one (CharSet.char c)) ih
      rw [whole] at both
      exact both

end Pattern

end DesignTokens
