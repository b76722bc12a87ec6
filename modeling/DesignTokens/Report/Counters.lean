/-!
# Counters

Named counts, kept in the order of their names. Equal counters have equal entries, whatever the
order in which they were set.
-/

set_option autoImplicit false

namespace DesignTokens

/-- Counts by name, in strictly increasing order of the names. -/
structure Counters where
  entries : List (String × Nat)
  sorted : entries.Pairwise fun first second => first.1 < second.1

namespace Counters

/-- Puts a count at its place in a sorted list. -/
def place (name : String) (count : Nat) : List (String × Nat) → List (String × Nat)
  | [] => [(name, count)]
  | (n, c) :: rest =>
      if name < n then (name, count) :: (n, c) :: rest
      else if name = n then (name, count) :: rest
      else (n, c) :: place name count rest

theorem mem_place {name : String} {count : Nat} {entries : List (String × Nat)}
    {entry : String × Nat} (h : entry ∈ place name count entries) :
    entry = (name, count) ∨ entry ∈ entries := by
  induction entries with
  | nil => exact Or.inl (by simpa [place] using h)
  | cons first rest ih =>
      obtain ⟨n, c⟩ := first
      simp only [place] at h
      split at h
      · exact (List.mem_cons.1 h).imp id id
      · split at h
        · exact (List.mem_cons.1 h).imp id (List.mem_cons_of_mem _)
        · rcases List.mem_cons.1 h with rfl | h
          · exact Or.inr List.mem_cons_self
          · exact (ih h).imp id (List.mem_cons_of_mem _)

theorem sorted_place (name : String) (count : Nat) (entries : List (String × Nat))
    (sorted : entries.Pairwise fun first second => first.1 < second.1) :
    (place name count entries).Pairwise fun first second => first.1 < second.1 := by
  induction entries with
  | nil => simp [place]
  | cons first rest ih =>
      obtain ⟨n, c⟩ := first
      obtain ⟨least, tail⟩ := List.pairwise_cons.1 sorted
      simp only [place]
      split
      · next before =>
          refine List.pairwise_cons.2 ⟨?_, sorted⟩
          intro entry h
          rcases List.mem_cons.1 h with rfl | h
          · exact before
          · exact String.lt_trans before (least entry h)
      · next notBefore =>
          split
          · next same =>
              subst same
              exact List.pairwise_cons.2 ⟨least, tail⟩
          · next different =>
              refine List.pairwise_cons.2 ⟨?_, ih tail⟩
              intro entry h
              rcases mem_place h with rfl | h
              · exact String.not_le.1 fun le => different (String.le_antisymm le notBefore)
              · exact least entry h

/-- No counters. -/
def empty : Counters := ⟨[], .nil⟩

/-- Sets a counter. -/
def set (counters : Counters) (name : String) (count : Nat) : Counters :=
  ⟨place name count counters.entries, sorted_place name count counters.entries counters.sorted⟩

/-- Sets the counters of a list, first to last. -/
def setAll (counters : Counters) (entries : List (String × Nat)) : Counters :=
  entries.foldl (fun all entry => all.set entry.1 entry.2) counters

/-- Reads a counter, zero if it was never set. -/
def get (counters : Counters) (name : String) : Nat :=
  ((counters.entries.find? fun entry => entry.1 == name).map Prod.snd).getD 0

instance : Inhabited Counters := ⟨empty⟩

theorem ext_entries {first second : Counters} (same : first.entries = second.entries) :
    first = second := by
  cases first; cases second; cases same; rfl

/-- A name beyond all others is placed last. -/
theorem place_last {name : String} {count : Nat} {entries : List (String × Nat)}
    (beyond : ∀ entry ∈ entries, entry.1 < name) :
    place name count entries = entries ++ [(name, count)] := by
  induction entries with
  | nil => rfl
  | cons first rest ih =>
      obtain ⟨n, c⟩ := first
      have before : n < name := beyond _ List.mem_cons_self
      have notBefore : ¬ name < n := String.lt_asymm before
      have different : name ≠ n := fun same => String.lt_irrefl n (same ▸ before)
      simp [place, notBefore, different,
        ih fun entry h => beyond entry (List.mem_cons_of_mem _ h)]

end Counters

end DesignTokens
