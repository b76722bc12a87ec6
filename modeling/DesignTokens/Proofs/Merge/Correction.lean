import DesignTokens.Merge
import DesignTokens.Proofs.Name.Respelling
import DesignTokens.Proofs.OrderedMap.Insertion

/-!
# Corrected names

What the corrected names add to the folded tokens. The folded names stay in their order
(`filter_keys_withAddedNames`) with their values (`get?_withAddedNames`), and all that is added are
their corrections (`mem_keys_withAddedNames`).
-/

set_option autoImplicit false

namespace DesignTokens

namespace Merge

variable (folded : NormalTokens)

/-! ## Added names -/

theorem addedName?_eq_some_iff (name added : CanonicalName) :
    addedName? folded name = some added ↔ name.correction? = some added ∧ added ∉ folded.keys := by
  rw [addedName?, Option.filter_eq_some_iff, ← OrderedMap.contains_iff]
  simp

/-- The keys of the final tokens: every folded name, followed by its added name. -/
theorem keys_withAddedNames :
    (withAddedNames folded).keys =
      (folded.keys.flatMap fun name => name :: (addedName? folded name).toList).eraseDups := by
  rw [withAddedNames, OrderedMap.keys_ofList, OrderedMap.keys, List.map_flatMap, List.flatMap_map]
  congr 2
  funext token
  cases h : addedName? folded token.1 <;> simp [withAddedName, h]

/-- Added names stand between the folded names and change nothing of their order. -/
theorem filter_keys_withAddedNames :
    (withAddedNames folded).keys.filter folded.contains = folded.keys := by
  rw [keys_withAddedNames, filter_eraseDups, List.filter_flatMap]
  have alone : ∀ name ∈ folded.keys,
      (name :: (addedName? folded name).toList).filter folded.contains = [name] := by
    intro name known
    have knownName : folded.contains name = true := (folded.contains_iff name).2 known
    rw [List.filter_cons_of_pos knownName]
    cases h : addedName? folded name with
    | none => rfl
    | some added =>
        have new := ((addedName?_eq_some_iff folded name added).1 h).2
        rw [← OrderedMap.contains_iff] at new
        simp [new]
  rw [List.flatMap_congr alone, List.flatMap_singleton', eraseDups_eq_self folded.keys_nodup]

/-- What stands between the folded names are the added names, each once. -/
theorem filter_new_keys_withAddedNames :
    (withAddedNames folded).keys.filter (fun name => !folded.contains name) =
      (folded.keys.filterMap (addedName? folded)).eraseDups := by
  rw [keys_withAddedNames, filter_eraseDups, List.filter_flatMap, List.filterMap_eq_flatMap_toList]
  have alone : ∀ name ∈ folded.keys,
      (name :: (addedName? folded name).toList).filter (fun name => !folded.contains name) =
        (addedName? folded name).toList := by
    intro name known
    have knownName : folded.contains name = true := (folded.contains_iff name).2 known
    rw [List.filter_cons_of_neg (by simp [knownName])]
    cases h : addedName? folded name with
    | none => rfl
    | some added =>
        have new := ((addedName?_eq_some_iff folded name added).1 h).2
        rw [← OrderedMap.contains_iff] at new
        simp [new]
  rw [List.flatMap_congr alone]

/-- The final names are the folded names and their corrections. -/
theorem mem_keys_withAddedNames (name : CanonicalName) :
    name ∈ (withAddedNames folded).keys ↔
      name ∈ folded.keys ∨ ∃ original ∈ folded.keys, original.correction? = some name := by
  simp only [keys_withAddedNames, List.mem_eraseDups, List.mem_flatMap, List.mem_cons,
    Option.mem_toList, addedName?_eq_some_iff]
  constructor
  · rintro ⟨original, known, rfl | ⟨correction, -⟩⟩
    · exact Or.inl known
    · exact Or.inr ⟨original, known, correction⟩
  · rintro (known | ⟨original, known, correction⟩)
    · exact ⟨name, known, Or.inl rfl⟩
    · by_cases present : name ∈ folded.keys
      · exact ⟨name, present, Or.inl rfl⟩
      · exact ⟨original, known, Or.inr ⟨correction, present⟩⟩

/-- A folded name keeps its value. -/
theorem get?_withAddedNames {name : CanonicalName} {resolved : Resolved}
    (known : folded.get? name = some resolved) :
    (withAddedNames folded).get? name = some resolved.value := by
  have member : (name, resolved) ∈ folded.entries := (folded.get?_eq_some_iff name resolved).1 known
  apply OrderedMap.get?_ofList_of_unique
  · exact List.mem_flatMap.2 ⟨_, member, List.mem_cons_self⟩
  · intro other h
    obtain ⟨token, tokenMember, h⟩ := List.mem_flatMap.1 h
    rcases List.mem_cons.1 h with own | added
    · -- The entry of a folded name is that of its only token.
      obtain ⟨rfl, rfl⟩ := Prod.mk.inj own
      have same := (folded.get?_eq_some_iff token.1 token.2).2 tokenMember
      rw [known] at same
      rw [Option.some.inj same]
    · -- An added name is not folded.
      obtain ⟨addedName, isAdded, pair⟩ := by simpa using added
      have new := ((addedName?_eq_some_iff folded token.1 name).1 (by simp_all)).2
      exact absurd (List.mem_map_of_mem member) new

/-! ## The value of an added name -/

/-- What a token gives a name that is not folded: its value, if the name is its correction. -/
theorem findRev?_withAddedName {name : CanonicalName} (new : name ∉ folded.keys)
    {token : CanonicalName × Resolved} (member : token ∈ folded.entries) :
    (withAddedName folded token).findRev? (fun entry => entry.1 == name) =
      if token.1.correction? == some name then some (name, token.2.value) else none := by
  have other : token.1 ≠ name := fun same => new (same ▸ List.mem_map_of_mem member)
  rw [List.findRev?_eq_find?_reverse, withAddedName]
  cases added : addedName? folded token.1 with
  | none =>
      have uncorrected : token.1.correction? ≠ some name := by
        intro correction
        have isAdded := (addedName?_eq_some_iff folded token.1 name).2 ⟨correction, new⟩
        rw [added] at isAdded
        exact absurd isAdded (by simp)
      simp [other, uncorrected]
  | some correction =>
      have corrected := ((addedName?_eq_some_iff folded token.1 correction).1 added).1
      by_cases same : correction = name
      · simp [corrected, same]
      · simp [corrected, same, other]

/-- An added name takes the value of the last folded name that it corrects. -/
theorem get?_withAddedNames_of_new {name : CanonicalName} (new : name ∉ folded.keys) :
    (withAddedNames folded).get? name =
      ((folded.keys.findRev? fun original => original.correction? == some name).bind
        folded.get?).map Resolved.value := by
  have found : ((folded.entries.flatMap (withAddedName folded)).findRev? fun entry =>
      entry.1 == name) = (folded.entries.findRev? fun token =>
        token.1.correction? == some name).map fun token => (name, token.2.value) := by
    have each : ∀ tokens ⊆ folded.entries, (tokens.findSome? fun token =>
        (withAddedName folded token).findRev? fun entry => entry.1 == name) =
          (tokens.find? fun token => token.1.correction? == some name).map
            fun token => (name, token.2.value) := by
      intro tokens within
      induction tokens with
      | nil => rfl
      | cons token rest ih =>
          rw [List.findSome?_cons, List.find?_cons,
            findRev?_withAddedName folded new (within List.mem_cons_self),
            ih fun other h => within (List.mem_cons_of_mem _ h)]
          cases token.1.correction? == some name <;> rfl
    have reversed := each folded.entries.reverse fun token h => List.mem_reverse.1 h
    simp only [List.findRev?_eq_find?_reverse] at reversed ⊢
    rw [List.reverse_flatMap, List.find?_flatMap]
    exact reversed
  rw [withAddedNames, OrderedMap.get?_ofList, found, OrderedMap.keys]
  simp only [List.findRev?_eq_find?_reverse, ← List.map_reverse, List.find?_map, Function.comp_def]
  cases last : folded.entries.reverse.find? fun token => token.1.correction? == some name with
  | none => rfl
  | some token =>
      have member := List.mem_reverse.1 (List.mem_of_find?_eq_some last)
      have value := (folded.get?_eq_some_iff token.1 token.2).2 member
      simp only [Option.map_some, Option.bind_some, value]

/-! ## More tokens -/

variable (more : List (CanonicalName × Resolved))

theorem mem_keys_insertAll (name : CanonicalName) :
    name ∈ (folded.insertAll more).keys ↔ name ∈ folded.keys ∨ name ∈ more.map Prod.fst := by
  rw [OrderedMap.keys_insertAll, List.mem_eraseDups, List.mem_append]

/-- More tokens leave the values of other names alone. -/
theorem get?_insertAll_of_notMem {name : CanonicalName} (other : name ∉ more.map Prod.fst) :
    (folded.insertAll more).get? name = folded.get? name := by
  have absent : (more.findRev? fun token => token.1 == name) = none := by
    rw [List.findRev?_eq_find?_reverse, List.find?_eq_none]
    intro token member same
    rw [beq_iff_eq] at same
    exact other (same ▸ List.mem_map_of_mem (List.mem_reverse.1 member))
  rw [OrderedMap.get?_insertAll, absent, Option.map_none, Option.none_or]

/-- Among other names, more tokens add the same corrections. -/
theorem filter_addedName?_insertAll {name : CanonicalName} (known : name ∈ folded.keys) :
    (addedName? (folded.insertAll more) name).toList.filter (fun added =>
        added ∈ (withAddedNames folded).keys ∧ added ∉ more.map Prod.fst) =
      (addedName? folded name).toList.filter fun added => added ∉ more.map Prod.fst := by
  rw [addedName?, addedName?]
  cases correction : name.correction? with
  | none => rfl
  | some corrected =>
      have final : corrected ∈ (withAddedNames folded).keys :=
        (mem_keys_withAddedNames folded corrected).2 (Or.inr ⟨name, known, correction⟩)
      have grown : (folded.insertAll more).contains corrected =
          (folded.contains corrected || decide (corrected ∈ more.map Prod.fst)) := by
        rw [Bool.eq_iff_iff, Bool.or_eq_true, decide_eq_true_iff]
        simp only [OrderedMap.contains_iff, mem_keys_insertAll]
      rw [Option.filter_some, Option.filter_some, grown]
      by_cases own : corrected ∈ more.map Prod.fst
      · cases folded.contains corrected <;> simp [own]
      · cases folded.contains corrected <;> simp [own, final]

/-- More tokens keep every final name. -/
theorem keys_withAddedNames_subset :
    (withAddedNames folded).keys ⊆ (withAddedNames (folded.insertAll more)).keys := by
  intro name known
  rw [mem_keys_withAddedNames] at known ⊢
  simp only [mem_keys_insertAll]
  rcases known with given | ⟨original, given, correction⟩
  · exact Or.inl (Or.inl given)
  · exact Or.inr ⟨original, Or.inl given, correction⟩

/-- More tokens keep the order of the final names that are not among their own. -/
theorem filter_keys_withAddedNames_insertAll :
    ((withAddedNames (folded.insertAll more)).keys.filter fun name =>
        name ∈ (withAddedNames folded).keys ∧ name ∉ more.map Prod.fst) =
      (withAddedNames folded).keys.filter fun name => name ∉ more.map Prod.fst := by
  -- Only names of `more` stand behind the folded ones.
  have grown : (folded.insertAll more).keys =
      folded.keys ++ (more.map Prod.fst).eraseDups.filter fun name => !folded.keys.elem name := by
    rw [OrderedMap.keys_insertAll, eraseDups_append_filter, eraseDups_eq_self folded.keys_nodup]
  have alike : ∀ name ∈ folded.keys,
      (name :: (addedName? (folded.insertAll more) name).toList).filter (fun name =>
          name ∈ (withAddedNames folded).keys ∧ name ∉ more.map Prod.fst) =
        (name :: (addedName? folded name).toList).filter fun name =>
          name ∉ more.map Prod.fst := by
    intro name known
    have final : name ∈ (withAddedNames folded).keys :=
      (mem_keys_withAddedNames folded name).2 (Or.inl known)
    have added := filter_addedName?_insertAll folded more known
    simp only [List.filter_cons, final, true_and, added]
  rw [keys_withAddedNames (folded.insertAll more), filter_eraseDups, grown, List.flatMap_append,
    List.filter_append, List.filter_flatMap, List.flatMap_congr alike, ← List.filter_flatMap,
    eraseDups_append_of_subset, ← filter_eraseDups, ← keys_withAddedNames]
  intro name member
  obtain ⟨final, other⟩ := of_decide_eq_true (List.mem_filter.1 member).2
  rw [keys_withAddedNames, List.mem_eraseDups] at final
  exact List.mem_filter.2 ⟨final, decide_eq_true other⟩

/-- More tokens keep the value of a final name that is neither among their own names nor a
correction of one. -/
theorem get?_withAddedNames_insertAll {name : CanonicalName} (other : name ∉ more.map Prod.fst)
    (uncorrected : ∀ own ∈ more.map Prod.fst, own.correction? ≠ some name) :
    (withAddedNames (folded.insertAll more)).get? name = (withAddedNames folded).get? name := by
  have same := get?_insertAll_of_notMem folded more other
  cases found : folded.get? name with
  | some resolved =>
      rw [get?_withAddedNames folded found]
      rw [found] at same
      exact get?_withAddedNames _ same
  | none =>
      have unknown : name ∉ folded.keys := (folded.get?_eq_none_iff name).1 found
      have stillUnknown : name ∉ (folded.insertAll more).keys :=
        (OrderedMap.get?_eq_none_iff _ name).1 (same.trans found)
      -- The names of `more` that stand behind the folded ones correct to another name.
      have behind : (((more.map Prod.fst).eraseDups.filter fun own =>
          !folded.keys.elem own).reverse.find? fun original =>
            original.correction? == some name) = none := by
        rw [List.find?_eq_none]
        intro own member correction
        have isOwn := List.mem_eraseDups.1 (List.mem_filter.1 (List.mem_reverse.1 member)).1
        exact uncorrected own isOwn (by simpa using correction)
      rw [get?_withAddedNames_of_new _ unknown, get?_withAddedNames_of_new _ stillUnknown,
        OrderedMap.keys_insertAll, eraseDups_append_filter, eraseDups_eq_self folded.keys_nodup]
      simp only [List.findRev?_eq_find?_reverse, List.reverse_append, List.find?_append, behind,
        Option.none_or]
      cases last : folded.keys.reverse.find? fun original => original.correction? == some name with
      | none => rfl
      | some original =>
          have correction : original.correction? = some name := by simpa using List.find?_some last
          have notOwn : original ∉ more.map Prod.fst := fun own => uncorrected original own correction
          rw [Option.bind_some, Option.bind_some, get?_insertAll_of_notMem folded more notOwn]

end Merge

end DesignTokens
