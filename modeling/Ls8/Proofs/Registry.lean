import Ls8.Service.Registry
import Mathlib.Data.List.Nodup

/-!
# Registries with distinct ids

Putting values in and taking them out never makes an id stand twice (`Distinct.put`,
`Distinct.filter`). In such a registry what is listed is what is found (`Distinct.find?_of_mem`),
and taking values out uncovers none (`find?_filter`).
-/

namespace Ls8.Service.Registry

variable {α : Type} {registry : Registry α} {id other : String} {value : α}

def keys (registry : Registry α) : List String := registry.entries.map Prod.fst

/-- No id stands for two values. -/
def Distinct (registry : Registry α) : Prop := registry.keys.Nodup

theorem distinct_empty : Distinct ({} : Registry α) := List.nodup_nil

theorem size_eq_length_keys (registry : Registry α) : registry.size = registry.keys.length := by
  rw [size, keys, List.length_map]

/-! ## Ids and values -/

theorem mem_keys_iff : id ∈ registry.keys ↔ ∃ value, registry.find? id = some value := by
  obtain ⟨entries⟩ := registry
  simp only [keys, find?]
  induction entries with
  | nil => simp
  | cons entry rest ih =>
    rw [List.map_cons, List.mem_cons, lookup_cons]
    by_cases here : id = entry.1
    · simp [here]
    · simp [here, ih]

theorem not_mem_keys_iff : id ∉ registry.keys ↔ registry.find? id = none := by
  rw [mem_keys_iff, Option.eq_none_iff_forall_ne_some, not_exists]

/-- What is listed is what is found. -/
theorem Distinct.find?_of_mem (h : registry.Distinct) (hMem : (id, value) ∈ registry.entries) :
    registry.find? id = some value :=
  (lookup_eq_some_iff_mem h).mpr hMem

theorem mem_entries_of_find? (h : registry.find? id = some value) :
    (id, value) ∈ registry.entries := by
  obtain ⟨before, after, hEntries, -⟩ := List.lookup_eq_some_iff.mp h
  rw [hEntries]
  exact List.mem_append_right before List.mem_cons_self

/-! ## Putting in -/

theorem mem_entries_put {entry : String × α} (h : entry ∈ (registry.put id value).entries) :
    entry = (id, value) ∨ entry ∈ registry.entries := by
  obtain ⟨entries⟩ := registry
  simp only [put] at h ⊢
  induction entries with
  | nil => exact Or.inl (List.mem_singleton.mp h)
  | cons first rest ih =>
    rw [putEntry] at h
    split at h
    · rcases List.mem_cons.mp h with hHere | hRest
      · exact Or.inl hHere
      · exact Or.inr (List.mem_cons_of_mem _ hRest)
    · rcases List.mem_cons.mp h with hHere | hRest
      · exact Or.inr (List.mem_cons.mpr (Or.inl hHere))
      · exact (ih hRest).imp_right (List.mem_cons_of_mem _)

theorem mem_keys_put :
    other ∈ (registry.put id value).keys ↔ other = id ∨ other ∈ registry.keys := by
  rw [mem_keys_iff, mem_keys_iff, find?_put]
  by_cases here : other = id
  · simp [here]
  · simp [here]

/-- An id that is there stays where it is. -/
theorem keys_put_of_mem (h : id ∈ registry.keys) :
    (registry.put id value).keys = registry.keys := by
  obtain ⟨entries⟩ := registry
  simp only [keys, put] at h ⊢
  induction entries with
  | nil => cases h
  | cons entry rest ih =>
    by_cases here : entry.1 = id
    · simp [putEntry, here]
    · have hRest : id ∈ rest.map Prod.fst := by
        rw [List.map_cons, List.mem_cons] at h
        exact h.resolve_left (Ne.symm here)
      simp [putEntry, here, ih hRest]

/-- A new id is added at the end. -/
theorem keys_put_of_not_mem (h : id ∉ registry.keys) :
    (registry.put id value).keys = registry.keys ++ [id] := by
  obtain ⟨entries⟩ := registry
  simp only [keys, put] at h ⊢
  induction entries with
  | nil => rfl
  | cons entry rest ih =>
    rw [List.map_cons, List.mem_cons, not_or] at h
    obtain ⟨hFirst, hRest⟩ := h
    simp [putEntry, Ne.symm hFirst, ih hRest]

theorem Distinct.put (h : registry.Distinct) (id : String) (value : α) :
    (registry.put id value).Distinct := by
  by_cases hMem : id ∈ registry.keys
  · rw [Distinct, keys_put_of_mem hMem]
    exact h
  · rw [Distinct, keys_put_of_not_mem hMem]
    exact h.append (List.nodup_singleton id) (List.disjoint_singleton.mpr hMem)

/-- Putting in what is there changes nothing. -/
theorem put_of_find? (h : registry.find? id = some value) : registry.put id value = registry := by
  obtain ⟨entries⟩ := registry
  simp only [find?, put, mk.injEq] at h ⊢
  induction entries with
  | nil => cases h
  | cons entry rest ih =>
    obtain ⟨first, old⟩ := entry
    rw [lookup_cons] at h
    by_cases here : id = first
    · rw [if_pos here] at h
      cases h
      simp [putEntry, here]
    · rw [if_neg here] at h
      simp [putEntry, Ne.symm here, ih h]

/-! ## Taking out -/

theorem Distinct.filter (h : registry.Distinct) (keep : String → α → Bool) :
    (registry.filter keep).Distinct :=
  (List.filter_sublist.map Prod.fst).nodup h

/-- Taking values out uncovers none. -/
theorem find?_filter (h : registry.Distinct) (keep : String → α → Bool) (id : String) :
    (registry.filter keep).find? id = (registry.find? id).filter (keep id) := by
  obtain ⟨entries⟩ := registry
  simp only [Distinct, keys, find?, Registry.filter] at h ⊢
  induction entries with
  | nil => rfl
  | cons entry rest ih =>
    obtain ⟨first, old⟩ := entry
    rw [List.map_cons, List.nodup_cons] at h
    obtain ⟨hFirst, hRest⟩ := h
    have hAbsent : first ∉ (Registry.mk rest).keys := hFirst
    have hNone : rest.lookup first = none := not_mem_keys_iff.mp hAbsent
    by_cases here : id = first
    · subst here
      by_cases hKeep : keep id old
      · simp [lookup_cons, hKeep, Option.filter_some]
      · simp [lookup_cons, hKeep, ih hRest, hNone, Option.filter_some]
    · by_cases hKeep : keep first old
      · simp [lookup_cons, hKeep, here, ih hRest]
      · simp [lookup_cons, hKeep, here, ih hRest]

theorem mem_keys_erase : other ∈ (registry.erase id).keys ↔ other ≠ id ∧ other ∈ registry.keys := by
  rw [mem_keys_iff, mem_keys_iff, find?_erase]
  by_cases here : other = id
  · simp [here]
  · simp [here]

end Ls8.Service.Registry
