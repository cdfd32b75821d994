/-!
# Lists of keys and values

* `lookup_cons`: what the first pair of such a list does to the look-up.
* `lookup_eq_some_iff_mem`: where no key stands twice, what is listed is what is found.
* `lookup_filter`: what is found under a key depends on the pairs with that key alone.
-/

namespace Ls8

variable {κ α : Type} [DecidableEq κ]

/-- The first pair answers for its own key only. -/
theorem lookup_cons (key : κ) (entry : κ × α) (rest : List (κ × α)) :
    (entry :: rest).lookup key = if key = entry.1 then some entry.2 else rest.lookup key := by
  obtain ⟨first, value⟩ := entry
  by_cases same : key = first
  · simp [same]
  · have differ : (key == first) = false := by simpa using same
    simp [List.lookup_cons, same, differ]

/-- Where no key stands twice, what is listed is what is found. -/
theorem lookup_eq_some_iff_mem {entries : List (κ × α)} (h : (entries.map Prod.fst).Nodup)
    {key : κ} {value : α} : entries.lookup key = some value ↔ (key, value) ∈ entries := by
  induction entries with
  | nil => simp
  | cons entry rest ih =>
    rw [List.map_cons, List.nodup_cons] at h
    obtain ⟨hFirst, hRest⟩ := h
    rw [lookup_cons, List.mem_cons]
    by_cases here : key = entry.1
    · rw [if_pos here, Option.some_inj]
      constructor
      · rintro rfl
        exact Or.inl (Prod.ext here rfl)
      · rintro (hEntry | hMem)
        · rw [← hEntry]
        · exact (hFirst (List.mem_map.mpr ⟨_, hMem, here⟩)).elim
    · rw [if_neg here, ih hRest]
      exact (or_iff_right fun hEntry => here (congrArg Prod.fst hEntry)).symm

theorem lookup_filter (entries : List (κ × α)) (key : κ) :
    (entries.filter (·.1 == key)).lookup key = entries.lookup key := by
  induction entries with
  | nil => rfl
  | cons entry rest ih =>
    by_cases here : entry.1 = key
    · rw [List.filter_cons_of_pos (by simpa using here), lookup_cons, lookup_cons, if_pos here.symm,
        if_pos here.symm]
    · rw [List.filter_cons_of_neg (by simpa using here), ih, lookup_cons, if_neg (Ne.symm here)]

end Ls8
