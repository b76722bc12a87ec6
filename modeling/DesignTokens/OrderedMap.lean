/-!
# Maps that remember the order of their keys

An `OrderedMap` is a finite map whose entries stand in the order in which their keys were first
inserted. `insert` gives a known key its new value in place and puts a new key last, so a repeated
key keeps its first position and takes its last value (`keys_insert`, `get?_insert`).
-/

set_option autoImplicit false

namespace DesignTokens

universe u v w

/-- A finite map with its keys in the order of their first insertion. -/
structure OrderedMap (κ : Type u) (α : Type v) where
  entries : List (κ × α)
  distinct : (entries.map Prod.fst).Nodup

namespace OrderedMap

variable {κ : Type u} {α : Type v}

/-! ## Association lists -/

section Entries

variable [DecidableEq κ]

/-- The value of the first entry under `key`. -/
def lookup (key : κ) : List (κ × α) → Option α
  | [] => none
  | (k, a) :: rest => if k = key then some a else lookup key rest

/-- Replaces the value of the first entry under `key`, or adds an entry at the end. -/
def place (key : κ) (value : α) : List (κ × α) → List (κ × α)
  | [] => [(key, value)]
  | (k, a) :: rest => if k = key then (k, value) :: rest else (k, a) :: place key value rest

theorem lookup_isSome_iff (key : κ) (entries : List (κ × α)) :
    (lookup key entries).isSome ↔ key ∈ entries.map Prod.fst := by
  induction entries with
  | nil => simp [lookup]
  | cons entry rest ih =>
      obtain ⟨k, a⟩ := entry
      by_cases h : k = key
      · simp [lookup, h]
      · simp [lookup, h, ih, Ne.symm h]

/-- Placing a value adds the key at the end if it is new and leaves the keys alone if not. -/
theorem keys_place (key : κ) (value : α) (entries : List (κ × α)) :
    (place key value entries).map Prod.fst =
      if key ∈ entries.map Prod.fst then entries.map Prod.fst
      else entries.map Prod.fst ++ [key] := by
  induction entries with
  | nil => simp [place]
  | cons entry rest ih =>
      obtain ⟨k, a⟩ := entry
      by_cases h : k = key
      · simp [place, h]
      · simp only [place, h, if_false, List.map_cons, List.mem_cons, Ne.symm h, false_or, ih]
        split <;> simp

theorem nodup_place (key : κ) (value : α) (entries : List (κ × α))
    (distinct : (entries.map Prod.fst).Nodup) :
    ((place key value entries).map Prod.fst).Nodup := by
  rw [keys_place]
  split
  · exact distinct
  · next absent =>
      rw [List.nodup_append]
      refine ⟨distinct, by simp, ?_⟩
      intro x hx y hy
      rw [List.mem_singleton] at hy
      rintro rfl
      exact absent (hy ▸ hx)

theorem lookup_place (key other : κ) (value : α) (entries : List (κ × α)) :
    lookup other (place key value entries) =
      if key = other then some value else lookup other entries := by
  induction entries with
  | nil => simp [place, lookup]
  | cons entry rest ih =>
      obtain ⟨k, a⟩ := entry
      by_cases h : k = key
      · subst h
        by_cases h' : k = other <;> simp [place, lookup, h']
      · by_cases h' : k = other
        · subst h'
          simp [place, lookup, h, Ne.symm h]
        · simp [place, lookup, h, h', ih]

end Entries

/-! ## The map -/

/-- The map without entries. -/
def empty : OrderedMap κ α := ⟨[], List.nodup_nil⟩

instance : EmptyCollection (OrderedMap κ α) := ⟨empty⟩

instance : Inhabited (OrderedMap κ α) := ⟨empty⟩

/-- The keys in order of first insertion. -/
def keys (map : OrderedMap κ α) : List κ := map.entries.map Prod.fst

/-- The values in the order of their keys. -/
def values (map : OrderedMap κ α) : List α := map.entries.map Prod.snd

/-- Number of entries. -/
def size (map : OrderedMap κ α) : Nat := map.entries.length

/-- Whether there is no entry. -/
def isEmpty (map : OrderedMap κ α) : Bool := map.entries.isEmpty

section Access

variable [DecidableEq κ]

/-- The value under `key`. -/
def get? (map : OrderedMap κ α) (key : κ) : Option α := lookup key map.entries

/-- Whether `key` has a value. -/
def contains (map : OrderedMap κ α) (key : κ) : Bool := (map.get? key).isSome

/-- Gives `key` the value `value`: in place if the key is known, last if it is new. -/
def insert (map : OrderedMap κ α) (key : κ) (value : α) : OrderedMap κ α :=
  ⟨place key value map.entries, nodup_place key value map.entries map.distinct⟩

/-- Inserts the entries of a list, first to last. -/
def insertAll (map : OrderedMap κ α) (entries : List (κ × α)) : OrderedMap κ α :=
  entries.foldl (fun m entry => m.insert entry.1 entry.2) map

/-- The map of a list of entries: a repeated key keeps its first position and its last value. -/
def ofList (entries : List (κ × α)) : OrderedMap κ α := empty.insertAll entries

end Access

/-- Applies a function to every value. -/
def mapValues {β : Type w} (f : α → β) (map : OrderedMap κ α) : OrderedMap κ β :=
  ⟨map.entries.map fun entry => (entry.1, f entry.2), by
    have same : (map.entries.map fun entry => (entry.1, f entry.2)).map Prod.fst =
        map.entries.map Prod.fst := by simp [Function.comp_def]
    rw [same]
    exact map.distinct⟩

/-! ## What the operations do to keys and values -/

@[simp] theorem keys_empty : (empty : OrderedMap κ α).keys = [] := rfl

theorem keys_nodup (map : OrderedMap κ α) : map.keys.Nodup := map.distinct

@[simp] theorem keys_mapValues {β : Type w} (f : α → β) (map : OrderedMap κ α) :
    (map.mapValues f).keys = map.keys := by
  simp [keys, mapValues, Function.comp_def]

section AccessLemmas

variable [DecidableEq κ]

@[simp] theorem get?_empty (key : κ) : (empty : OrderedMap κ α).get? key = none := rfl

theorem contains_iff (map : OrderedMap κ α) (key : κ) :
    map.contains key = true ↔ key ∈ map.keys :=
  lookup_isSome_iff key map.entries

theorem keys_insert (map : OrderedMap κ α) (key : κ) (value : α) :
    (map.insert key value).keys =
      if key ∈ map.keys then map.keys else map.keys ++ [key] :=
  keys_place key value map.entries

theorem get?_insert (map : OrderedMap κ α) (key other : κ) (value : α) :
    (map.insert key value).get? other = if key = other then some value else map.get? other :=
  lookup_place key other value map.entries

theorem insertAll_nil (map : OrderedMap κ α) : map.insertAll [] = map := rfl

theorem insertAll_cons (map : OrderedMap κ α) (entry : κ × α) (rest : List (κ × α)) :
    map.insertAll (entry :: rest) = (map.insert entry.1 entry.2).insertAll rest := rfl

theorem insertAll_append (map : OrderedMap κ α) (first second : List (κ × α)) :
    map.insertAll (first ++ second) = (map.insertAll first).insertAll second := by
  simp [insertAll]

end AccessLemmas

end OrderedMap

end DesignTokens
