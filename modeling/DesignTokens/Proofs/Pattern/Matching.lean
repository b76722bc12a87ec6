import DesignTokens.Pattern.Basic

/-!
# What patterns match

The matches of a pattern, said part by part (`Pattern.Matches`), and the search for them:
`Pattern.reach` finds exactly the spots at which a match can end (`mem_reach_iff`), and
`Pattern.isIn` holds exactly if there is a match anywhere in the text (`isIn_iff`).

The search keeps one spot for each length of the text that is left, and follows a repetition for no
more matches than there are spots. Neither loses anything: spots of one text with equally much left
are the same spot (`Spot.Follows.unique`), and more matches than characters contain one of the empty
text, which can be left out or made again (`Times.pump`).
-/

set_option autoImplicit false

namespace DesignTokens

/-! ## Spots of one text -/

/-- A spot that is reached from another one by going on in the text. -/
def Spot.Follows (later earlier : Spot) : Prop :=
  ∃ taken, earlier.rest = taken ++ later.rest ∧ later.before = taken.getLast?.or earlier.before

namespace Spot

theorem Follows.refl (spot : Spot) : spot.Follows spot := ⟨[], rfl, rfl⟩

theorem Follows.trans {first second third : Spot} (h : third.Follows second)
    (h' : second.Follows first) : third.Follows first := by
  obtain ⟨taken, rest, before⟩ := h
  obtain ⟨taken', rest', before'⟩ := h'
  refine ⟨taken' ++ taken, ?_, ?_⟩
  · rw [rest', rest, List.append_assoc]
  · rw [before, before', List.getLast?_append, Option.or_assoc]

theorem Follows.length_le {later earlier : Spot} (h : later.Follows earlier) :
    later.rest.length ≤ earlier.rest.length := by
  obtain ⟨taken, rest, -⟩ := h
  rw [rest, List.length_append]
  omega

/-- Two spots of one text with equally much left are the same. -/
theorem Follows.unique {start spot other : Spot} (h : spot.Follows start)
    (h' : other.Follows start) (same : spot.rest.length = other.rest.length) : spot = other := by
  obtain ⟨taken, rest, before⟩ := h
  obtain ⟨taken', rest', before'⟩ := h'
  obtain ⟨rfl, sameRest⟩ := List.append_inj' (rest.symm.trans rest') same
  cases spot
  cases other
  simp_all

/-- A step over one character. -/
theorem follows_cons (before : Option Char) (c : Char) (rest : List Char) :
    Follows ⟨some c, rest⟩ ⟨before, c :: rest⟩ := ⟨[c], rfl, rfl⟩

end Spot

/-! ## Counted steps -/

/-- A number of steps of a relation, one after the other. -/
inductive Times {α : Type} (step : α → α → Prop) : Nat → α → α → Prop where
  | none (a : α) : Times step 0 a a
  | more {a b c : α} {n : Nat} (first : step a b) (later : Times step n b c) :
      Times step (n + 1) a c

namespace Times

variable {α : Type} {step : α → α → Prop}

theorem zero_iff {a c : α} : Times step 0 a c ↔ c = a := by
  constructor
  · intro h
    cases h
    rfl
  · rintro rfl
    exact Times.none _

theorem succ_iff {a c : α} {n : Nat} :
    Times step (n + 1) a c ↔ ∃ b, step a b ∧ Times step n b c := by
  constructor
  · intro h
    cases h with
    | more first later => exact ⟨_, first, later⟩
  · rintro ⟨b, first, later⟩
    exact Times.more first later

theorem append {a b c : α} {m n : Nat} (h : Times step m a b) (h' : Times step n b c) :
    Times step (m + n) a c := by
  induction h with
  | none => rwa [Nat.zero_add]
  | more first _ ih =>
      rw [Nat.add_right_comm]
      exact Times.more first (ih h')

theorem split {a c : α} {m n : Nat} (h : Times step (m + n) a c) :
    ∃ b, Times step m a b ∧ Times step n b c := by
  induction m generalizing a with
  | zero =>
      rw [Nat.zero_add] at h
      exact ⟨a, Times.none a, h⟩
  | succ m ih =>
      rw [Nat.add_right_comm] at h
      obtain ⟨b, first, later⟩ := succ_iff.1 h
      obtain ⟨middle, before, behind⟩ := ih later
      exact ⟨middle, Times.more first before, behind⟩

section Spots

variable {step : Spot → Spot → Prop} (forward : ∀ spot next, step spot next → next.Follows spot)

include forward

theorem follows {n : Nat} {start stop : Spot} (h : Times step n start stop) :
    stop.Follows start := by
  induction h with
  | none spot => exact Spot.Follows.refl spot
  | more first _ ih => exact ih.trans (forward _ _ first)

/-- Steps that are not all over a character: there are as many as one likes, at least one for each
character that is taken. -/
theorem pump_from {n : Nat} {start stop : Spot} (h : Times step n start stop) :
    n ≤ start.rest.length - stop.rest.length ∨
      ∀ k, start.rest.length - stop.rest.length ≤ k → Times step k start stop := by
  induction h with
  | none spot => exact Or.inl (Nat.zero_le _)
  | @more start next stop n first later ih =>
      have down := (forward _ _ first).length_le
      have further := (follows forward later).length_le
      by_cases stays : next.rest.length = start.rest.length
      · -- The step takes nothing, so it can be made again and again.
        have same := (forward _ _ first).unique (Spot.Follows.refl start) stays
        subst same
        rcases ih with few | any
        · by_cases all : n + 1 ≤ next.rest.length - stop.rest.length
          · exact Or.inl all
          · right
            intro k enough
            obtain ⟨extra, rfl⟩ : ∃ extra, k = extra + n := ⟨k - n, by omega⟩
            have again : Times step extra next next := by
              clear enough
              induction extra with
              | zero => exact Times.none next
              | succ extra ih => exact Times.more first ih
            exact again.append later
        · exact Or.inr any
      · rcases ih with few | any
        · left
          omega
        · right
          intro k enough
          obtain ⟨k, rfl⟩ : ∃ less, k = less + 1 := ⟨k - 1, by omega⟩
          exact Times.more first (any k (by omega))

/-- More steps than characters can be made in any number that is enough for the characters. -/
theorem pump {n k : Nat} {start stop : Spot} (h : Times step n start stop)
    (long : start.rest.length < n) (enough : start.rest.length ≤ k) : Times step k start stop := by
  rcases pump_from forward h with few | any
  · omega
  · apply any
    omega

/-- Of the steps that are required, as many are enough as there are characters, and one more. -/
theorem min_add_iff {least extra : Nat} {start stop : Spot} :
    Times step (min least (start.rest.length + 1) + extra) start stop ↔
      Times step (least + extra) start stop := by
  by_cases short : least ≤ start.rest.length + 1
  · rw [Nat.min_eq_left short]
  · rw [Nat.min_eq_right (by omega)]
    constructor
    · intro times
      exact times.pump forward (by omega) (by omega)
    · intro times
      exact times.pump forward (by omega) (by omega)

end Spots

end Times

/-! ## Matches -/

namespace Pattern

/-- A match of a pattern from a spot to another one. -/
def Matches : Pattern → Spot → Spot → Prop
  | .empty, start, stop => stop = start
  | .one set, start, stop =>
      ∃ c, set.contains c = true ∧ start.rest = c :: stop.rest ∧ stop.before = some c
  | .assertion condition, start, stop => condition.holds start = true ∧ stop = start
  | .sequence p q, start, stop => ∃ middle, p.Matches start middle ∧ q.Matches middle stop
  | .either p q, start, stop => p.Matches start stop ∨ q.Matches start stop
  | .repeated p least most, start, stop =>
      ∃ extra, (∀ limit ∈ most, extra ≤ limit - least) ∧
        Times p.Matches (least + extra) start stop

/-- A match goes on in the text. -/
theorem Matches.follows {pattern : Pattern} {start stop : Spot} (h : pattern.Matches start stop) :
    stop.Follows start := by
  induction pattern generalizing start stop with
  | empty =>
      rw [show stop = start from h]
      exact Spot.Follows.refl start
  | one set =>
      obtain ⟨c, -, rest, before⟩ := h
      exact ⟨[c], rest, before⟩
  | assertion condition =>
      rw [h.2]
      exact Spot.Follows.refl start
  | sequence p q ihp ihq =>
      obtain ⟨middle, first, second⟩ := h
      exact (ihq second).trans (ihp first)
  | either p q ihp ihq =>
      rcases h with first | second
      · exact ihp first
      · exact ihq second
  | repeated p least most ih =>
      obtain ⟨extra, -, times⟩ := h
      exact Times.follows (fun _ _ => ih) times

/-! ## The search -/

/-- Spots of one text are kept, each once. -/
theorem mem_distinct {start : Spot} {spots : List Spot} (all : ∀ spot ∈ spots, spot.Follows start)
    (spot : Spot) : spot ∈ distinct spots ↔ spot ∈ spots := by
  have general : ∀ kept : List Spot, (∀ spot ∈ kept, spot.Follows start) →
      (spot ∈ spots.foldl addSpot kept ↔ spot ∈ kept ∨ spot ∈ spots) := by
    induction spots with
    | nil =>
        intro kept _
        simp
    | cons next later ih =>
        intro kept keptAll
        have nextFollows := all next List.mem_cons_self
        have added : ∀ other, other ∈ addSpot kept next ↔ other ∈ kept ∨ other = next := by
          intro other
          rw [addSpot]
          split
          · next known =>
              obtain ⟨old, member, same⟩ := List.any_eq_true.1 known
              have isNext := (keptAll old member).unique nextFollows (by simpa using same)
              constructor
              · exact Or.inl
              · rintro (inKept | rfl)
                · exact inKept
                · exact isNext ▸ member
          · rw [List.mem_append, List.mem_singleton]
        have addedAll : ∀ other ∈ addSpot kept next, other.Follows start := by
          intro other member
          rcases (added other).1 member with inKept | rfl
          · exact keptAll other inKept
          · exact nextFollows
        rw [List.foldl_cons, ih (fun other member => all other (List.mem_cons_of_mem _ member)) _
          addedAll, added, List.mem_cons, or_assoc]
  rw [distinct, general [] (by simp)]
  simp

section Repetition

variable {step : Spot → List Spot} (forward : ∀ spot, ∀ next ∈ step spot, next.Follows spot)

include forward

theorem follows_of_mem_flatMap {start : Spot} {spots : List Spot}
    (all : ∀ spot ∈ spots, spot.Follows start) :
    ∀ next ∈ spots.flatMap step, next.Follows start := by
  intro next member
  obtain ⟨spot, isSpot, isNext⟩ := List.mem_flatMap.1 member
  exact (forward spot next isNext).trans (all spot isSpot)

theorem mem_exactly_iff {start : Spot} (n : Nat) {spots : List Spot}
    (all : ∀ spot ∈ spots, spot.Follows start) (stop : Spot) :
    stop ∈ exactly step n spots ↔
      ∃ spot ∈ spots, Times (fun a b => b ∈ step a) n spot stop := by
  induction n generalizing spots with
  | zero => simp [exactly, Times.zero_iff]
  | succ n ih =>
      have next := follows_of_mem_flatMap forward all
      have kept := mem_distinct next
      rw [exactly, ih fun spot member => next spot ((kept spot).1 member)]
      simp only [kept, List.mem_flatMap, Times.succ_iff]
      constructor
      · rintro ⟨next, ⟨spot, old, isNext⟩, later⟩
        exact ⟨spot, old, next, isNext, later⟩
      · rintro ⟨spot, old, next, isNext, later⟩
        exact ⟨next, ⟨spot, old, isNext⟩, later⟩

theorem mem_upTo_iff {start : Spot} (n : Nat) {spots : List Spot}
    (all : ∀ spot ∈ spots, spot.Follows start) (stop : Spot) :
    stop ∈ upTo step n spots ↔
      ∃ m ≤ n, ∃ spot ∈ spots, Times (fun a b => b ∈ step a) m spot stop := by
  induction n generalizing spots with
  | zero => simp [upTo, Times.zero_iff]
  | succ n ih =>
      have both : ∀ spot ∈ spots ++ spots.flatMap step, spot.Follows start := by
        intro spot member
        rcases List.mem_append.1 member with old | new
        · exact all spot old
        · exact follows_of_mem_flatMap forward all spot new
      have kept := mem_distinct both
      rw [upTo, ih fun spot member => both spot ((kept spot).1 member)]
      simp only [kept, List.mem_append, List.mem_flatMap]
      constructor
      · rintro ⟨m, bound, spot, old | ⟨earlier, old, isNext⟩, times⟩
        · exact ⟨m, by omega, spot, old, times⟩
        · exact ⟨m + 1, by omega, earlier, old, Times.more isNext times⟩
      · rintro ⟨m, bound, spot, old, times⟩
        cases times with
        | none => exact ⟨0, Nat.zero_le n, stop, Or.inl old, Times.none stop⟩
        | @more _ next _ m isNext later =>
            exact ⟨m, by omega, next, Or.inr ⟨spot, old, isNext⟩, later⟩

/-- A repetition ends where the matches of its counts end. -/
theorem mem_repetition_iff (least : Nat) (most : Option Nat) (start stop : Spot) :
    stop ∈ repetition step least most start ↔
      ∃ extra, (∀ limit ∈ most, extra ≤ limit - least) ∧
        Times (fun a b => b ∈ step a) (least + extra) start stop := by
  have own : ∀ spot ∈ [start], spot.Follows start := by
    intro spot member
    rw [List.mem_singleton.1 member]
    exact Spot.Follows.refl start
  have required : ∀ middle, middle ∈ exactly step (min least (start.rest.length + 1)) [start] ↔
      Times (fun a b => b ∈ step a) (min least (start.rest.length + 1)) start middle := by
    intro middle
    rw [mem_exactly_iff forward _ own]
    simp
  have inText : ∀ middle ∈ exactly step (min least (start.rest.length + 1)) [start],
      middle.Follows start := by
    intro middle member
    exact Times.follows forward ((required middle).1 member)
  -- At most `cap` further matches are looked for after the required ones.
  have counted : ∀ cap, stop ∈ upTo step cap (exactly step (min least (start.rest.length + 1)) [start]) ↔
      ∃ m ≤ cap, Times (fun a b => b ∈ step a) (min least (start.rest.length + 1) + m) start stop := by
    intro cap
    rw [mem_upTo_iff forward cap inText]
    constructor
    · rintro ⟨m, bound, middle, member, times⟩
      exact ⟨m, bound, ((required middle).1 member).append times⟩
    · rintro ⟨m, bound, times⟩
      obtain ⟨middle, before, behind⟩ := times.split
      exact ⟨m, bound, middle, (required middle).2 before, behind⟩
  obtain ⟨cap, reduced, capped⟩ : ∃ cap,
      (repetition step least most start =
        upTo step cap (exactly step (min least (start.rest.length + 1)) [start])) ∧
      ∀ extra, extra ≤ cap ↔
        extra ≤ start.rest.length + 1 ∧ ∀ limit ∈ most, extra ≤ limit - least := by
    cases most with
    | none => exact ⟨start.rest.length + 1, rfl, by simp⟩
    | some limit =>
        refine ⟨min (limit - least) (start.rest.length + 1), rfl, ?_⟩
        intro extra
        simp
        omega
  rw [reduced, counted]
  constructor
  · rintro ⟨m, bound, times⟩
    obtain ⟨-, limited⟩ := (capped m).1 bound
    exact ⟨m, limited, (Times.min_add_iff forward).1 times⟩
  · rintro ⟨extra, limited, times⟩
    by_cases few : extra ≤ start.rest.length + 1
    · exact ⟨extra, (capped extra).2 ⟨few, limited⟩, (Times.min_add_iff forward).2 times⟩
    · -- More steps than the search makes are as many as it makes at most.
      refine ⟨start.rest.length + 1, (capped _).2 ⟨Nat.le_refl _, ?_⟩, ?_⟩
      · intro limit isLimit
        have bound := limited limit isLimit
        omega
      · exact times.pump forward (by omega) (by omega)

end Repetition

/-- **The search finds exactly the matches.** -/
theorem mem_reach_iff (pattern : Pattern) (start stop : Spot) :
    stop ∈ pattern.reach start ↔ pattern.Matches start stop := by
  induction pattern generalizing start stop with
  | empty =>
      rw [reach_empty, List.mem_singleton]
      rfl
  | one set =>
      obtain ⟨before, rest⟩ := start
      cases rest with
      | nil => simp [reach_one_nil, Matches]
      | cons c rest =>
          rw [reach_one_cons]
          constructor
          · intro found
            split at found
            · next member =>
                rw [List.mem_singleton.1 found]
                exact ⟨c, member, rfl, rfl⟩
            · exact absurd found List.not_mem_nil
          · rintro ⟨d, member, sameRest, sameBefore⟩
            obtain ⟨rfl, rfl⟩ := List.cons.inj sameRest
            rw [if_pos member, List.mem_singleton, ← sameBefore]
  | assertion condition =>
      rw [reach_assertion, Matches]
      split
      · next holds => simp [holds]
      · next fails => simp [fails]
  | sequence p q ihp ihq =>
      have forward : ∀ spot ∈ (p.reach start).flatMap q.reach, spot.Follows start := by
        intro spot member
        obtain ⟨middle, first, second⟩ := List.mem_flatMap.1 member
        exact ((ihq middle spot).1 second).follows.trans ((ihp start middle).1 first).follows
      rw [reach_sequence, mem_distinct forward]
      simp only [List.mem_flatMap, ihp, ihq, Matches]
  | either p q ihp ihq =>
      have forward : ∀ spot ∈ p.reach start ++ q.reach start, spot.Follows start := by
        intro spot member
        rcases List.mem_append.1 member with first | second
        · exact ((ihp start spot).1 first).follows
        · exact ((ihq start spot).1 second).follows
      rw [reach_either, mem_distinct forward, List.mem_append, ihp, ihq, Matches]
  | repeated p least most ih =>
      have forward : ∀ spot, ∀ next ∈ p.reach spot, next.Follows spot := by
        intro spot next member
        exact ((ih spot next).1 member).follows
      have steps : (fun a b => b ∈ p.reach a) = p.Matches := by
        funext a b
        exact propext (ih a b)
      show stop ∈ repetition p.reach least most start ↔ _
      rw [mem_repetition_iff forward, steps, Matches]

/-- The spots of a text are those behind its start. -/
theorem mem_spotsFrom_iff (before : Option Char) (cs : List Char) (spot : Spot) :
    spot ∈ spotsFrom before cs ↔ spot.Follows ⟨before, cs⟩ := by
  induction cs generalizing before with
  | nil =>
      rw [spotsFrom, List.mem_singleton]
      constructor
      · rintro rfl
        exact Spot.Follows.refl _
      · intro follows
        have none_left := follows.length_le
        exact follows.unique (Spot.Follows.refl _) (Nat.le_zero.1 none_left)
  | cons c rest ih =>
      rw [spotsFrom, List.mem_cons, ih]
      constructor
      · rintro (rfl | follows)
        · exact Spot.Follows.refl _
        · exact follows.trans (Spot.follows_cons before c rest)
      · rintro ⟨taken, split, last⟩
        cases taken with
        | nil =>
            left
            obtain ⟨spotBefore, spotRest⟩ := spot
            simp_all
        | cons first later =>
            right
            obtain ⟨rfl, rest_eq⟩ := List.cons.inj split
            refine ⟨later, rest_eq, ?_⟩
            rw [last, List.getLast?_cons]
            cases later.getLast? <;> rfl

/-- **A pattern is in a text exactly if it matches from some spot of the text to another.** -/
theorem isIn_iff (pattern : Pattern) (text : String) :
    pattern.isIn text = true ↔
      ∃ start stop, Spot.Follows start ⟨none, text.toList⟩ ∧ pattern.Matches start stop := by
  rw [isIn, List.any_eq_true]
  constructor
  · rintro ⟨start, member, found⟩
    have nonempty : pattern.reach start ≠ [] := by simpa using found
    obtain ⟨stop, isStop⟩ := List.exists_mem_of_ne_nil _ nonempty
    exact ⟨start, stop, (mem_spotsFrom_iff none text.toList start).1 member,
      (mem_reach_iff pattern start stop).1 isStop⟩
  · rintro ⟨start, stop, follows, isMatch⟩
    refine ⟨start, (mem_spotsFrom_iff none text.toList start).2 follows, ?_⟩
    have isStop := (mem_reach_iff pattern start stop).2 isMatch
    have nonempty := List.ne_nil_of_mem isStop
    simpa using nonempty

end Pattern

end DesignTokens
