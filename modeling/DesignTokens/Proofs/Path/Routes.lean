import DesignTokens.Discovery
import Mathlib.Data.List.Basic

/-!
# Routes of joined and of cut paths

What joining and cutting paths does to the steps of a walk. A name put below a path adds one step
down (`route_append`, `route_appendAll`). The directory of a path has the steps before the last one,
but for steps that stay where they are (`steps_directory`).
-/

set_option autoImplicit false

namespace DesignTokens

/-- A name that an entry of a directory can have. -/
structure IsName (name : FileName) : Prop where
  nonempty : name ≠ []
  notHere : name ≠ [Path.dot]
  notAbove : name ≠ [Path.dot, Path.dot]
  noSlash : Path.slash ∉ name
  short : name.length ≤ FileTree.maxNameSize

namespace Path

/-! ## Segments -/

theorem split_ne_nil (bs : List UInt8) : split bs ≠ [] := by
  fun_cases split bs <;> simp

theorem split_cons_of_ne {b : UInt8} (h : b ≠ slash) {bs segment : List UInt8}
    {others : List (List UInt8)} (rest : split bs = segment :: others) :
    split (b :: bs) = (b :: segment) :: others := by
  rw [split, if_neg h, rest]

theorem split_slash (bs : List UInt8) : split (slash :: bs) = [] :: split bs := by
  rw [split, if_pos rfl]

theorem split_append_slash (front back : List UInt8) :
    split (front ++ slash :: back) = split front ++ split back := by
  induction front with
  | nil => rfl
  | cons b bs ih =>
      rw [List.cons_append]
      by_cases slash : b = slash
      · subst slash
        rw [split_slash, split_slash, ih, List.cons_append]
      · obtain ⟨segment, others, rest⟩ := List.exists_cons_of_ne_nil (split_ne_nil bs)
        rw [rest, List.cons_append] at ih
        rw [split_cons_of_ne slash ih, split_cons_of_ne slash rest, List.cons_append]

theorem split_of_noSlash {bs : List UInt8} (noSlash : slash ∉ bs) : split bs = [bs] := by
  induction bs with
  | nil => rfl
  | cons b bs ih =>
      rw [List.mem_cons, not_or] at noSlash
      exact split_cons_of_ne (Ne.symm noSlash.1) (ih noSlash.2)

theorem noSlash_of_mem_split {bs segment : List UInt8} (h : segment ∈ split bs) :
    slash ∉ segment := by
  induction bs generalizing segment with
  | nil =>
      obtain rfl : segment = [] := by simpa [split] using h
      exact List.not_mem_nil
  | cons b bs ih =>
      by_cases slash : b = slash
      · subst slash
        rw [split_slash, List.mem_cons] at h
        rcases h with rfl | later
        · exact List.not_mem_nil
        · exact ih later
      · obtain ⟨first, others, rest⟩ := List.exists_cons_of_ne_nil (split_ne_nil bs)
        rw [split_cons_of_ne slash rest, List.mem_cons] at h
        rcases h with rfl | later
        · rw [List.mem_cons, not_or]
          exact ⟨Ne.symm slash, ih (rest ▸ List.mem_cons_self)⟩
        · exact ih (rest ▸ List.mem_cons_of_mem _ later)

/-- Joined segments are split where they were joined. -/
theorem split_join {segments : List (List UInt8)} (some_segment : segments ≠ [])
    (noSlash : ∀ segment ∈ segments, slash ∉ segment) : split (join segments) = segments := by
  induction segments with
  | nil => exact absurd rfl some_segment
  | cons segment rest ih =>
      have own := noSlash segment List.mem_cons_self
      cases rest with
      | nil => simpa [join] using split_of_noSlash own
      | cons next others =>
          have later := ih (by simp) fun s h => noSlash s (List.mem_cons_of_mem _ h)
          rw [join] at later ⊢
          rw [List.intercalate_cons_cons, List.append_assoc, List.singleton_append,
            split_append_slash, split_of_noSlash own, later]
          rfl

/-! ## Joined paths -/

/-- A name is a step down. -/
theorem ofSegment?_name {name : FileName} (h : IsName name) :
    Step.ofSegment? name = some (.down name) := by
  rw [Step.ofSegment?, if_neg (by simpa using h.nonempty), if_neg h.notHere, if_neg h.notAbove]

/-- The steps of octets that may follow a slash at the root. -/
def stepsOf (absolute : Bool) (bs : List UInt8) : List Step :=
  (if absolute then (split bs).drop 1 else split bs).filterMap Step.ofSegment?

theorem route_eq (path : Path) :
    path.route = ⟨path.isAbsolute, stepsOf path.isAbsolute path.octets, path.isSlashed⟩ := rfl

/-- What follows a slash adds its own steps. -/
theorem stepsOf_append_slash (absolute : Bool) (front back : List UInt8) :
    stepsOf absolute (front ++ slash :: back) =
      stepsOf absolute front ++ (split back).filterMap Step.ofSegment? := by
  have some_segment : 1 ≤ (split front).length :=
    List.length_pos_iff.2 (split_ne_nil front)
  rw [stepsOf, stepsOf, split_append_slash]
  cases absolute with
  | true => simp only [if_true, List.drop_append_of_le_length some_segment, List.filterMap_append]
  | false => simp only [Bool.false_eq_true, if_false, List.filterMap_append]

/-- A name below a path is one step down from the path. -/
theorem route_append {path : Path} (written : path.octets ≠ []) {name : FileName} (h : IsName name) :
    (path.append name).route = ⟨path.route.fromRoot, path.route.steps ++ [.down name], false⟩ ∧
      (path.append name).octets ≠ [] := by
  have down : (split name).filterMap Step.ofSegment? = [.down name] := by
    rw [split_of_noSlash h.noSlash, List.filterMap_cons, ofSegment?_name h, List.filterMap_nil]
  have unslashed : ∀ front : List UInt8, isSlashed ⟨front ++ slash :: name⟩ = false := by
    intro front
    have ends : (front ++ slash :: name).getLast? = name.getLast? := by
      rw [← List.singleton_append, ← List.append_assoc, List.getLast?_append_of_ne_nil _ h.nonempty]
    rw [isSlashed, ends, beq_eq_false_iff_ne]
    intro isSlash
    exact h.noSlash (List.mem_of_getLast? isSlash)
  by_cases ends : path.isSlashed = true
  · -- The slash is there already, and no further one is put in.
    obtain ⟨front, cut⟩ := List.getLast?_eq_some_iff.1 (beq_iff_eq.1 ends)
    have joined : path.append name = ⟨front ++ slash :: name⟩ := by
      rw [append, if_neg written, if_pos ends, cut, List.append_assoc, List.singleton_append]
    refine ⟨?_, ?_⟩
    · have absolute : isAbsolute ⟨front ++ slash :: name⟩ = path.isAbsolute := by
        rw [isAbsolute, isAbsolute, cut]
        cases front <;> rfl
      have before : stepsOf path.isAbsolute path.octets = stepsOf path.isAbsolute front := by
        rw [cut, stepsOf_append_slash]
        simp [split, Step.ofSegment?]
      rw [joined, route_eq, route_eq, absolute, stepsOf_append_slash, unslashed, down, before]
    · rw [joined]
      exact List.append_ne_nil_of_right_ne_nil _ (List.cons_ne_nil _ _)
  · have joined : path.append name = ⟨path.octets ++ slash :: name⟩ := by
      rw [append, if_neg written, if_neg ends]
    refine ⟨?_, ?_⟩
    · have absolute : isAbsolute ⟨path.octets ++ slash :: name⟩ = path.isAbsolute := by
        rw [isAbsolute, isAbsolute, List.head?_append_of_ne_nil _ written]
      rw [joined, route_eq, route_eq, absolute, stepsOf_append_slash, unslashed, down]
    · rw [joined]
      exact List.append_ne_nil_of_right_ne_nil _ (List.cons_ne_nil _ _)

/-- A place below a path is as many steps down from the path as it has names. -/
theorem route_appendAll {path : Path} (written : path.octets ≠ []) {place : Place}
    (names : ∀ name ∈ place, IsName name) :
    (path.appendAll place).octets ≠ [] ∧
      (path.appendAll place).route.fromRoot = path.route.fromRoot ∧
      (path.appendAll place).route.steps = path.route.steps ++ place.map .down ∧
      (place ≠ [] → (path.appendAll place).route.slashed = false) := by
  induction place generalizing path with
  | nil => exact ⟨written, rfl, (List.append_nil _).symm, fun some_name => absurd rfl some_name⟩
  | cons name rest ih =>
      obtain ⟨route, appended⟩ := route_append written (names name List.mem_cons_self)
      obtain ⟨still, fromRoot, steps, slashed⟩ :=
        ih appended fun other h => names other (List.mem_cons_of_mem _ h)
      rw [route] at fromRoot steps
      refine ⟨still, fromRoot, ?_, ?_⟩
      · rw [List.append_assoc] at steps
        exact steps
      · intro _
        cases rest with
        | nil => exact congrArg Route.slashed route
        | cons next others => exact slashed (by simp)

/-! ## The directory of a path -/

/-- Only idle segments are dropped at the end. -/
theorem exists_dropIdleEnd (absolute : Bool) (segments : List (List UInt8)) :
    ∃ idle, segments = dropIdleEnd absolute segments ++ idle ∧
      ∀ segment ∈ idle, isIdle segment = true := by
  have cut : ∀ list : List (List UInt8), ∃ idle,
      list = (list.reverse.dropWhile isIdle).reverse ++ idle ∧
        ∀ segment ∈ idle, isIdle segment = true := by
    intro list
    refine ⟨(list.reverse.takeWhile isIdle).reverse, ?_, ?_⟩
    · rw [← List.reverse_append, List.takeWhile_append_dropWhile, List.reverse_reverse]
    · intro segment h
      exact List.all_eq_true.1 List.all_takeWhile segment (List.mem_reverse.1 h)
  unfold dropIdleEnd
  split
  · next here =>
      obtain ⟨_, starts⟩ := Bool.and_eq_true_iff.1 here
      obtain ⟨rest, rfl⟩ := List.head?_eq_some_iff.1 (beq_iff_eq.1 starts)
      obtain ⟨idle, whole, allIdle⟩ := cut rest
      exact ⟨idle, congrArg ([dot] :: ·) whole, allIdle⟩
  · exact cut segments

/-- Nothing is dropped behind a segment that is not idle. -/
theorem dropIdleEnd_concat (absolute : Bool) (segments : List (List UInt8)) {segment : List UInt8}
    (busy : isIdle segment = false) :
    dropIdleEnd absolute (segments ++ [segment]) = segments ++ [segment] := by
  obtain ⟨idle, whole, allIdle⟩ := exists_dropIdleEnd absolute (segments ++ [segment])
  by_cases nothing : idle = []
  · rw [nothing, List.append_nil] at whole
    exact whole.symm
  · -- The last segment would be one of those dropped.
    have last : idle.getLast nothing = segment := by
      have ends := congrArg List.getLast? whole
      rw [List.getLast?_append_of_ne_nil _ nothing, List.getLast?_concat,
        List.getLast?_eq_some_getLast nothing] at ends
      exact (Option.some.inj ends).symm
    rw [← last, allIdle _ (List.getLast_mem nothing)] at busy
    exact absurd busy (by simp)

/-- An idle segment takes no step or stays. -/
theorem ofSegment?_idle {segment : List UInt8} (idle : isIdle segment = true) {step : Step}
    (h : Step.ofSegment? segment = some step) : step = .stay := by
  rw [isIdle, Bool.or_eq_true] at idle
  rcases idle with empty | dot
  · rw [Step.ofSegment?, if_pos empty] at h
    exact absurd h (by simp)
  · rw [beq_iff_eq] at dot
    rw [dot] at h
    exact (Option.some.inj h).symm

/-- The last segment of octets that do not end in a slash is not empty. -/
theorem exists_last_segment {bs : List UInt8} (nonempty : bs ≠ [])
    (unslashed : bs.getLast? ≠ some slash) : ∃ front last, last ≠ [] ∧ split bs = front ++ [last] := by
  by_cases slashed : slash ∈ bs
  · obtain ⟨back, front, cut, noSlash⟩ := List.eq_append_cons_of_mem (List.mem_reverse.2 slashed)
    have whole : bs = front.reverse ++ slash :: back.reverse := by
      rw [← List.reverse_reverse bs, cut]
      simp
    have own : split back.reverse = [back.reverse] :=
      split_of_noSlash fun h => noSlash (List.mem_reverse.1 h)
    refine ⟨split front.reverse, back.reverse, ?_, ?_⟩
    · intro empty
      rw [whole, empty] at unslashed
      exact unslashed (by simp)
    · rw [whole, split_append_slash, own]
  · exact ⟨[], bs, nonempty, split_of_noSlash slashed⟩

/-- The segments of a path to a name end in that name. -/
theorem exists_segments {path : Path} {name : FileName}
    (ends : path.route.steps.getLast? = some (.down name)) (unslashed : path.route.slashed = false) :
    ∃ front last, path.segments = front ++ [last] ∧
      Step.ofSegment? last = some (.down name) ∧
      path.route.steps.dropLast = front.filterMap Step.ofSegment? := by
  have nonempty : path.octets ≠ [] := by
    intro empty
    have none_taken : path.route.steps = [] := by simp [route, segments, isAbsolute, empty, split,
      Step.ofSegment?]
    rw [none_taken] at ends
    exact absurd ends (by simp)
  have notSlash : path.octets.getLast? ≠ some slash := by simpa [route, isSlashed] using unslashed
  obtain ⟨front, last, busy, whole⟩ := exists_last_segment nonempty notSlash
  obtain ⟨front, segments⟩ : ∃ front, path.segments = front ++ [last] := by
    rw [Path.segments, whole]
    split
    · next absolute =>
        cases front with
        | nil =>
            -- The segment before the leading slash is empty.
            obtain ⟨rest, cut⟩ : ∃ rest, path.octets = slash :: rest :=
              List.head?_eq_some_iff.1 (by simpa [isAbsolute] using absolute)
            rw [cut, split_slash, List.nil_append, List.cons.injEq] at whole
            exact absurd whole.1.symm busy
        | cons first others => exact ⟨others, rfl⟩
    · exact ⟨front, rfl⟩
  have taken : (Step.ofSegment? last).isSome := by
    rw [Step.ofSegment?, if_neg (by simpa using busy)]
    split
    · rfl
    · split <;> rfl
  obtain ⟨step, isStep⟩ := Option.isSome_iff_exists.1 taken
  have steps : path.route.steps = front.filterMap Step.ofSegment? ++ [step] := by
    rw [route, segments, List.filterMap_append, List.filterMap_cons, isStep, List.filterMap_nil]
  rw [steps, List.getLast?_concat] at ends
  rw [Option.some.inj ends] at isStep steps
  exact ⟨front, last, segments, isStep, by rw [steps, List.dropLast_concat]⟩

/-- A segment that is a step down is the name it leads to, and no idle one. -/
theorem ofSegment?_down {segment : List UInt8} {name : FileName}
    (h : Step.ofSegment? segment = some (.down name)) :
    name = segment ∧ isIdle segment = false ∧ segment ≠ [dot, dot] := by
  rw [Step.ofSegment?] at h
  split at h
  · exact absurd h (by simp)
  · next nonempty =>
      split at h
      · exact absurd h (by simp)
      · next notHere =>
          split at h
          · exact absurd h (by simp)
          · next notAbove =>
              refine ⟨(Step.down.inj (Option.some.inj h)).symm, ?_, notAbove⟩
              simpa [isIdle, notHere] using nonempty

theorem noSlash_of_mem_segments {path : Path} {segment : List UInt8} (h : segment ∈ path.segments) :
    slash ∉ segment := by
  rw [segments] at h
  split at h
  · exact noSlash_of_mem_split (List.mem_of_mem_drop h)
  · exact noSlash_of_mem_split h

/-- A path goes down to proper names only. -/
theorem isName_of_mem_route {path : Path} {name : FileName} (h : .down name ∈ path.route.steps)
    (short : name.length ≤ FileTree.maxNameSize) : IsName name := by
  obtain ⟨segment, member, isDown⟩ := List.mem_filterMap.1 h
  obtain ⟨rfl, busy, notAbove⟩ := ofSegment?_down isDown
  obtain ⟨nonempty, notHere⟩ : name ≠ [] ∧ name ≠ [dot] := by
    simpa [isIdle] using busy
  exact ⟨nonempty, notHere, notAbove, noSlash_of_mem_segments member, short⟩

/-- The steps that lead elsewhere. -/
def moves (steps : List Step) : List Step := steps.filter (· != .stay)

theorem moves_append (first second : List Step) :
    moves (first ++ second) = moves first ++ moves second :=
  List.filter_append first second

theorem moves_idle {idle : List (List UInt8)} (h : ∀ segment ∈ idle, isIdle segment = true) :
    moves (idle.filterMap Step.ofSegment?) = [] := by
  rw [moves, List.filter_eq_nil_iff]
  intro step taken
  obtain ⟨segment, member, isStep⟩ := List.mem_filterMap.1 taken
  rw [ofSegment?_idle (h segment member) isStep]
  simp

/-- A relative path starts with an octet of its first segment. -/
theorem exists_head_of_relative {path : Path} (relative : path.isAbsolute = false) :
    ∃ segment others, path.segments = segment :: others ∧ (others ≠ [] → segment ≠ []) := by
  rw [segments, relative, if_neg Bool.false_ne_true]
  cases cut : path.octets with
  | nil => exact ⟨[], [], rfl, fun more => absurd rfl more⟩
  | cons b bs =>
      have notSlash : b ≠ slash := by simpa [isAbsolute, cut] using relative
      obtain ⟨segment, others, rest⟩ := List.exists_cons_of_ne_nil (split_ne_nil bs)
      exact ⟨b :: segment, others, split_cons_of_ne notSlash rest, fun _ => by simp⟩

/-- The steps of a path of segments are those of the segments. -/
theorem route_ofSegments {absolute : Bool} {segments : List (List UInt8)}
    (noSlash : ∀ segment ∈ segments, slash ∉ segment)
    (starts : absolute = false → ∃ segment others, segments = segment :: others ∧ segment ≠ []) :
    (ofSegments absolute segments).octets ≠ [] ∧
      (ofSegments absolute segments).route.fromRoot = absolute ∧
      (ofSegments absolute segments).route.steps = segments.filterMap Step.ofSegment? := by
  cases absolute with
  | true =>
      have octets : (ofSegments true segments).octets = slash :: join segments := rfl
      have isAbsolute : (ofSegments true segments).isAbsolute = true := by simp [isAbsolute, octets]
      refine ⟨fun empty => ?_, isAbsolute, ?_⟩
      · rw [empty] at octets
        exact absurd octets (by simp)
      · rw [route, Path.segments, isAbsolute, if_pos rfl, octets, split_slash, List.drop_one,
          List.tail_cons]
        by_cases nothing : segments = []
        · rw [nothing]
          rfl
        · rw [split_join nothing noSlash]
  | false =>
      obtain ⟨segment, others, rfl, nonempty⟩ := starts rfl
      obtain ⟨b, bs, rfl⟩ := List.exists_cons_of_ne_nil nonempty
      have notSlash : b ≠ slash := fun h =>
        noSlash _ List.mem_cons_self (h ▸ List.mem_cons_self)
      obtain ⟨rest, joined⟩ : ∃ rest, join ((b :: bs) :: others) = b :: rest := by
        cases others with
        | nil => exact ⟨bs, by simp [join]⟩
        | cons next more => exact ⟨_, by
            rw [join, List.intercalate_cons_cons, List.cons_append, List.cons_append]⟩
      have octets : (ofSegments false ((b :: bs) :: others)).octets = b :: rest := by
        simp [ofSegments, joined]
      have isRelative : (ofSegments false ((b :: bs) :: others)).isAbsolute = false := by
        simpa [isAbsolute, octets] using notSlash
      refine ⟨fun empty => ?_, isRelative, ?_⟩
      · rw [empty] at octets
        exact absurd octets (by simp)
      · rw [route, Path.segments, isRelative, if_neg Bool.false_ne_true, octets, ← joined,
          split_join (by simp) noSlash]

/-- **The directory of a path to a name has the steps before that name**, but for steps that stay. -/
theorem route_directory {path : Path} {name : FileName}
    (ends : path.route.steps.getLast? = some (.down name)) (unslashed : path.route.slashed = false) :
    path.directory.octets ≠ [] ∧ path.directory.route.fromRoot = path.route.fromRoot ∧
      moves path.directory.route.steps = moves path.route.steps.dropLast := by
  obtain ⟨front, last, segments, isDown, before⟩ := exists_segments ends unslashed
  have busy := (ofSegment?_down isDown).2.1
  obtain ⟨idle, whole, allIdle⟩ := exists_dropIdleEnd path.isAbsolute front
  generalize keeps : dropIdleEnd path.isAbsolute front = kept at whole
  have significant : path.significant = front ++ [last] := by
    rw [Path.significant, segments, dropIdleEnd_concat _ _ busy]
  have parent : path.parent? = some (ofSegments path.isAbsolute kept) := by
    rw [parent?, significant, parentSegments, List.dropLast_concat, keeps, if_neg (by simp)]
  have same : moves (kept.filterMap Step.ofSegment?) = moves path.route.steps.dropLast := by
    rw [before, whole, List.filterMap_append, moves_append, moves_idle allIdle, List.append_nil]
  rw [directory, parent]
  by_cases here : path.isAbsolute = false ∧ kept = []
  · -- A bare name is in the working directory.
    obtain ⟨relative, rfl⟩ := here
    have empty : (ofSegments path.isAbsolute []).octets = [] := by rw [relative]; rfl
    simp only [empty, if_true]
    refine ⟨by decide, ?_, ?_⟩
    · rw [route, route, relative]
      rfl
    · rw [← same]
      rfl
  · have noSlash : ∀ segment ∈ kept, slash ∉ segment := by
      intro segment member
      apply @noSlash_of_mem_segments path
      rw [segments, whole]
      simp [member]
    have starts : path.isAbsolute = false →
        ∃ segment others, kept = segment :: others ∧ segment ≠ [] := by
      intro relative
      obtain ⟨segment, others, cut, nonempty⟩ := exists_head_of_relative relative
      obtain ⟨first, more, rfl⟩ := List.exists_cons_of_ne_nil fun h => here ⟨relative, h⟩
      rw [segments, whole, List.cons_append, List.cons_append, List.cons.injEq] at cut
      obtain ⟨rfl, rfl⟩ := cut
      exact ⟨first, more, rfl, nonempty (by simp)⟩
    obtain ⟨written, fromRoot, steps⟩ := route_ofSegments noSlash starts
    simp only [written, if_false]
    exact ⟨written, fromRoot, by rw [steps, same]⟩

end Path

end DesignTokens
