import DesignTokens.OrderedMap
import Mathlib.Data.List.Basic

/-!
# Maps built by insertion

What a map knows of the list of entries it was built from: its keys are the keys of the list in the
order of first appearance (`keys_ofList`), and the value of a key is that of its last entry
(`get?_ofList`). First appearances are `List.eraseDups`; collapsing a list before or after it is
filtered, mapped or appended gives the same first appearances.
-/

set_option autoImplicit false

namespace DesignTokens

universe u v w

/-! ## First appearances -/

section FirstAppearances

variable {α : Type u} {β : Type v} [DecidableEq α] [DecidableEq β]

/-- Induction along the collapsing of a list: the tail goes on without the elements equal to the
head. -/
theorem collapse_induction {motive : List α → Prop} (nil : motive [])
    (cons : ∀ a rest, motive (rest.filter fun b => !b == a) → motive (a :: rest)) :
    ∀ l, motive l
  | [] => nil
  | a :: rest => cons a rest (collapse_induction nil cons (rest.filter fun b => !b == a))
termination_by l => l.length
decreasing_by exact Nat.lt_succ_of_le (List.length_filter_le _ _)

/-- Collapsing and filtering commute. -/
theorem filter_eraseDups (p : α → Bool) (l : List α) :
    l.eraseDups.filter p = (l.filter p).eraseDups := by
  induction l using collapse_induction with
  | nil => rfl
  | cons a rest ih =>
      rw [List.eraseDups_cons, List.filter_cons, List.filter_cons, ih]
      cases hp : p a with
      | true =>
          rw [if_pos rfl, if_pos rfl, List.eraseDups_cons]
          simp only [List.filter_filter, Bool.and_comm]
      | false =>
          rw [if_neg Bool.false_ne_true, if_neg Bool.false_ne_true, List.filter_filter]
          congr 1
          apply List.filter_congr
          intro b _
          by_cases hb : b = a
          · simp [hb, hp]
          · simp [hb]

theorem nodup_eraseDups (l : List α) : l.eraseDups.Nodup := by
  induction l using collapse_induction with
  | nil => exact List.nodup_nil
  | cons a rest ih =>
      rw [List.eraseDups_cons, List.nodup_cons]
      exact ⟨by simp [List.mem_eraseDups], ih⟩

/-- A list without repetitions is its own list of first appearances. -/
theorem eraseDups_eq_self {l : List α} (distinct : l.Nodup) : l.eraseDups = l := by
  induction l with
  | nil => rfl
  | cons a rest ih =>
      obtain ⟨new, tail⟩ := List.nodup_cons.1 distinct
      have same : (rest.filter fun b => !b == a) = rest := by
        rw [List.filter_eq_self]
        intro b hb
        simpa using fun e : b = a => new (e ▸ hb)
      rw [List.eraseDups_cons, same, ih tail]

/-- The first appearances stand in the order of the list. -/
theorem eraseDups_sublist (l : List α) : l.eraseDups.Sublist l := by
  induction l using collapse_induction with
  | nil => exact List.Sublist.refl []
  | cons a rest ih =>
      rw [List.eraseDups_cons]
      exact (ih.trans List.filter_sublist).cons_cons a

/-- Collapsing takes nothing away exactly if nothing is repeated. -/
theorem length_eraseDups_eq_iff (l : List α) : l.eraseDups.length = l.length ↔ l.Nodup := by
  constructor
  · intro same
    have whole := (eraseDups_sublist l).eq_of_length same
    exact whole ▸ nodup_eraseDups l
  · intro distinct
    rw [eraseDups_eq_self distinct]

/-- What a further list adds to the first appearances of a list. -/
theorem eraseDups_append_filter (first second : List α) :
    (first ++ second).eraseDups =
      first.eraseDups ++ second.eraseDups.filter fun a => !first.elem a := by
  rw [List.eraseDups_append, filter_eraseDups]
  rfl

theorem eraseDups_append_congr {first first' second second' : List α}
    (left : first.eraseDups = first'.eraseDups) (right : second.eraseDups = second'.eraseDups) :
    (first ++ second).eraseDups = (first' ++ second').eraseDups := by
  have members : ∀ a, first.elem a = first'.elem a := by
    intro a
    rw [Bool.eq_iff_iff, List.elem_iff, List.elem_iff, ← List.mem_eraseDups, left,
      List.mem_eraseDups]
  simp only [eraseDups_append_filter, left, right, members]

/-- Collapsing the parts of a list first changes nothing. -/
theorem eraseDups_flatMap_congr {γ : Type w} {f g : γ → List α} {l : List γ}
    (same : ∀ c ∈ l, (f c).eraseDups = (g c).eraseDups) :
    (l.flatMap f).eraseDups = (l.flatMap g).eraseDups := by
  induction l with
  | nil => rfl
  | cons c rest ih =>
      rw [List.flatMap_cons, List.flatMap_cons]
      exact eraseDups_append_congr (same c List.mem_cons_self)
        (ih fun d hd => same d (List.mem_cons_of_mem _ hd))

/-- Collapsing a list before its elements are renamed changes nothing of the collapsed result. -/
theorem eraseDups_filterMap_eraseDups (f : α → Option β) (l : List α) :
    (l.eraseDups.filterMap f).eraseDups = (l.filterMap f).eraseDups := by
  induction l using collapse_induction with
  | nil => rfl
  | cons a rest ih =>
      rw [List.eraseDups_cons, List.filterMap_cons, List.filterMap_cons]
      cases hf : f a with
      | none =>
          have same : (rest.filter fun b => !b == a).filterMap f = rest.filterMap f := by
            rw [List.filterMap_filter]
            apply List.filterMap_congr
            intro b _
            by_cases hb : b = a
            · simp [hb, hf]
            · simp [hb]
          simp only [ih, same]
      | some c =>
          -- The elements equal to `a` that the tail has lost would all become `c`.
          have same : ((rest.filter fun b => !b == a).filterMap f).filter (fun d => !d == c) =
              (rest.filterMap f).filter fun d => !d == c := by
            rw [List.filterMap_filter, List.filter_filterMap, List.filter_filterMap]
            apply List.filterMap_congr
            intro b _
            by_cases hb : b = a
            · simp [hb, hf, Option.filter_some]
            · simp [hb]
          show (c :: _).eraseDups = (c :: _).eraseDups
          rw [List.eraseDups_cons, ← filter_eraseDups, ih, filter_eraseDups, same,
            List.eraseDups_cons]

/-- A repetition of what stands before is not a first appearance. -/
theorem eraseDups_append_cons_of_mem {a : α} {first : List α} (known : a ∈ first)
    (rest : List α) : (first ++ a :: rest).eraseDups = (first ++ rest).eraseDups := by
  simp [List.eraseDups_append, List.cons_removeAll, known]

/-- What stands before adds nothing to the first appearances. -/
theorem eraseDups_append_of_subset {first second : List α} (known : second ⊆ first) :
    (first ++ second).eraseDups = first.eraseDups := by
  rw [eraseDups_append_filter, List.append_right_eq_self, List.filter_eq_nil_iff]
  intro a member
  simp [known (List.mem_eraseDups.1 member)]

/-- Two elements that appear for the first time side by side stay side by side. -/
theorem eraseDups_append_new_pair {a b : α} {first : List α} (new : a ∉ first) (new' : b ∉ first)
    (differ : a ≠ b) (rest : List α) :
    ∃ later, (first ++ a :: b :: rest).eraseDups = first.eraseDups ++ a :: b :: later := by
  obtain ⟨tail, collapsed⟩ : ∃ tail, (a :: b :: rest).eraseDups = a :: b :: tail := by
    rw [List.eraseDups_cons, List.filter_cons, if_pos (by simpa using Ne.symm differ),
      List.eraseDups_cons]
    exact ⟨_, rfl⟩
  refine ⟨tail.filter fun c => !first.elem c, ?_⟩
  rw [eraseDups_append_filter, collapsed]
  simp [new, new']

end FirstAppearances

namespace OrderedMap

variable {κ : Type u} {α : Type v} [DecidableEq κ]

/-! ## Placing -/

theorem place_place (key : κ) (first second : α) (entries : List (κ × α)) :
    place key second (place key first entries) = place key second entries := by
  induction entries with
  | nil => simp [place]
  | cons entry rest ih =>
      obtain ⟨k, a⟩ := entry
      by_cases same : k = key
      · simp [place, same]
      · simp [place, same, ih]

/-- Giving a key the value that it has changes nothing. -/
theorem place_lookup {key : κ} {value : α} {entries : List (κ × α)}
    (found : lookup key entries = some value) : place key value entries = entries := by
  induction entries with
  | nil => simp [lookup] at found
  | cons entry rest ih =>
      obtain ⟨k, a⟩ := entry
      by_cases same : k = key
      · have own : a = value := by simpa [lookup, same] using found
        simp [place, same, own]
      · have later : lookup key rest = some value := by simpa [lookup, same] using found
        simp [place, same, ih later]

/-- A new key goes last. -/
theorem place_of_notMem {key : κ} {entries : List (κ × α)}
    (new : key ∉ entries.map Prod.fst) (value : α) :
    place key value entries = entries ++ [(key, value)] := by
  induction entries with
  | nil => rfl
  | cons entry rest ih =>
      obtain ⟨k, a⟩ := entry
      rw [List.map_cons, List.mem_cons, not_or] at new
      simp [place, Ne.symm new.1, ih new.2]

/-- Placing a value keeps the other entries. -/
theorem mem_place {key : κ} {value : α} {entries : List (κ × α)} {entry : κ × α}
    (member : entry ∈ place key value entries) : entry = (key, value) ∨ entry ∈ entries := by
  induction entries with
  | nil => exact Or.inl (by simpa [place] using member)
  | cons first rest ih =>
      obtain ⟨k, a⟩ := first
      by_cases same : k = key
      · rw [place, if_pos same, List.mem_cons] at member
        rcases member with rfl | later
        · exact Or.inl (by rw [same])
        · exact Or.inr (List.mem_cons_of_mem _ later)
      · rw [place, if_neg same, List.mem_cons] at member
        rcases member with rfl | later
        · exact Or.inr List.mem_cons_self
        · exact (ih later).imp id (List.mem_cons_of_mem _)

/-! ## Looking up -/

theorem lookup_eq_none_iff (key : κ) (entries : List (κ × α)) :
    lookup key entries = none ↔ key ∉ entries.map Prod.fst := by
  rw [← lookup_isSome_iff, Option.not_isSome_iff_eq_none]

theorem lookup_append (key : κ) (first second : List (κ × α)) :
    lookup key (first ++ second) = (lookup key first).or (lookup key second) := by
  induction first with
  | nil => simp [lookup]
  | cons entry rest ih =>
      obtain ⟨k, a⟩ := entry
      by_cases same : k = key
      · simp [lookup, same]
      · simp [lookup, same, ih]

/-- A value that is found under a key is that of an entry. -/
theorem mem_of_lookup {key : κ} {value : α} {entries : List (κ × α)}
    (found : lookup key entries = some value) : (key, value) ∈ entries := by
  induction entries with
  | nil => simp [lookup] at found
  | cons entry rest ih =>
      obtain ⟨k, a⟩ := entry
      by_cases same : k = key
      · have own : a = value := by simpa [lookup, same] using found
        rw [same, own]
        exact List.mem_cons_self
      · have later : lookup key rest = some value := by simpa [lookup, same] using found
        exact List.mem_cons_of_mem _ (ih later)

/-- In a map, a key and a value belong together exactly if they are an entry. -/
theorem get?_eq_some_iff (map : OrderedMap κ α) (key : κ) (value : α) :
    map.get? key = some value ↔ (key, value) ∈ map.entries := by
  obtain ⟨entries, distinct⟩ := map
  show lookup key entries = some value ↔ (key, value) ∈ entries
  induction entries with
  | nil => simp [lookup]
  | cons entry rest ih =>
      obtain ⟨k, a⟩ := entry
      obtain ⟨new, tail⟩ := List.nodup_cons.1 distinct
      by_cases h : k = key
      · subst h
        have absent : (k, value) ∉ rest := fun hm => new (List.mem_map.2 ⟨_, hm, rfl⟩)
        simp [lookup, absent, eq_comm]
      · simp [lookup, h, Ne.symm h, ih tail]

/-- What is no key of a map has no value in it. -/
theorem get?_eq_none_iff (map : OrderedMap κ α) (key : κ) :
    map.get? key = none ↔ key ∉ map.keys := by
  rw [← contains_iff, contains, Option.not_isSome_iff_eq_none]

/-! ## Keys and values of a built map -/

/-- Inserting entries adds their keys in the order of first appearance. -/
theorem keys_insertAll (map : OrderedMap κ α) (entries : List (κ × α)) :
    (map.insertAll entries).keys = (map.keys ++ entries.map Prod.fst).eraseDups := by
  induction entries generalizing map with
  | nil => simp [insertAll_nil, eraseDups_eq_self map.keys_nodup]
  | cons entry rest ih =>
      rw [insertAll_cons, ih, keys_insert, List.map_cons]
      split
      · next known => rw [eraseDups_append_cons_of_mem known]
      · rw [List.append_assoc, List.singleton_append]

/-- The keys of a built map stand in the order of first appearance. -/
theorem keys_ofList (entries : List (κ × α)) :
    (ofList entries).keys = (entries.map Prod.fst).eraseDups := by
  rw [ofList, keys_insertAll, keys_empty, List.nil_append]

/-- Of the entries inserted under one key the last one stays. -/
theorem get?_insertAll (map : OrderedMap κ α) (entries : List (κ × α)) (key : κ) :
    (map.insertAll entries).get? key =
      ((entries.findRev? fun entry => entry.1 == key).map Prod.snd).or (map.get? key) := by
  induction entries generalizing map with
  | nil => simp [insertAll_nil]
  | cons entry rest ih =>
      rw [insertAll_cons, ih, get?_insert]
      simp only [List.findRev?_eq_find?_reverse, List.reverse_cons, List.find?_append]
      by_cases same : entry.1 = key
      · cases rest.reverse.find? fun entry => entry.1 == key <;> simp [same]
      · cases rest.reverse.find? fun entry => entry.1 == key <;> simp [same]

/-- The value of a key in a built map is that of its last entry. -/
theorem get?_ofList (entries : List (κ × α)) (key : κ) :
    (ofList entries).get? key = (entries.findRev? fun entry => entry.1 == key).map Prod.snd := by
  rw [ofList, get?_insertAll, get?_empty, Option.or_none]

/-- The value of a key in a built map is an entry of the list, which decides it if all entries of
the key agree. -/
theorem get?_ofList_of_unique {entries : List (κ × α)} {key : κ} {value : α}
    (present : (key, value) ∈ entries)
    (unique : ∀ other, (key, other) ∈ entries → other = value) :
    (ofList entries).get? key = some value := by
  rw [get?_ofList, List.findRev?_eq_find?_reverse]
  cases found : entries.reverse.find? fun entry => entry.1 == key with
  | none =>
      have absent := List.find?_eq_none.1 found (key, value) (List.mem_reverse.2 present)
      exact absurd (beq_self_eq_true key) absent
  | some entry =>
      have same : entry.1 = key := by simpa using List.find?_some found
      have member : entry ∈ entries := List.mem_reverse.1 (List.mem_of_find?_eq_some found)
      rw [Option.map_some, unique entry.2 (same ▸ member)]

/-- A map built from its own entries is the same as a map to look up in. -/
theorem get?_ofList_entries (map : OrderedMap κ α) (key : κ) :
    (ofList map.entries).get? key = map.get? key := by
  cases found : map.get? key with
  | none =>
      have absent : key ∉ map.keys := by
        rw [← contains_iff, contains, found]
        simp
      rw [get?_ofList, List.findRev?_eq_find?_reverse, Option.map_eq_none_iff, List.find?_eq_none]
      intro entry member same
      rw [beq_iff_eq] at same
      exact absent (same ▸ List.mem_map_of_mem (List.mem_reverse.1 member))
  | some value =>
      apply get?_ofList_of_unique ((map.get?_eq_some_iff key value).1 found)
      intro other member
      rw [(map.get?_eq_some_iff key other).2 member, Option.some.injEq] at found
      exact found

/-- Of several maps inserted one after the other, the last one that has a key gives its value. -/
theorem get?_ofList_flatMap_entries (maps : List (OrderedMap κ α)) (key : κ) :
    (ofList (maps.flatMap entries)).get? key = maps.findSomeRev? fun map => map.get? key := by
  have general : ∀ start : OrderedMap κ α,
      (start.insertAll (maps.flatMap entries)).get? key =
        (maps.findSomeRev? fun map => map.get? key).or (start.get? key) := by
    induction maps with
    | nil => intro start; simp [insertAll_nil]
    | cons map rest ih =>
        intro start
        have own : (start.insertAll map.entries).get? key =
            (map.get? key).or (start.get? key) := by
          rw [get?_insertAll, ← get?_ofList, get?_ofList_entries]
        rw [List.flatMap_cons, insertAll_append, ih, own]
        simp [Option.or_assoc]
  rw [ofList, general, get?_empty, Option.or_none]

end OrderedMap

end DesignTokens
