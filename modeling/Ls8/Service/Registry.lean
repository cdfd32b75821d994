import Ls8.Lookup

/-!
# Registries

Values by id, in the order in which the ids were first put in.

* `find?_put`, `find?_erase`: what putting a value in and taking one out do to the look-up.
-/

namespace Ls8.Service

structure Registry (α : Type) where
  entries : List (String × α) := []
  deriving DecidableEq

namespace Registry

variable {α : Type}

def find? (registry : Registry α) (id : String) : Option α := registry.entries.lookup id

def size (registry : Registry α) : Nat := registry.entries.length

/-- The entries with the value of `id` replaced, or added at the end. -/
def putEntry (id : String) (value : α) : List (String × α) → List (String × α)
  | [] => [(id, value)]
  | (other, old) :: rest =>
    if other = id then (id, value) :: rest else (other, old) :: putEntry id value rest

def put (registry : Registry α) (id : String) (value : α) : Registry α :=
  ⟨putEntry id value registry.entries⟩

def filter (registry : Registry α) (keep : String → α → Bool) : Registry α :=
  ⟨registry.entries.filter fun entry => keep entry.1 entry.2⟩

def erase (registry : Registry α) (id : String) : Registry α :=
  registry.filter fun other _ => other != id

theorem lookup_putEntry (id other : String) (value : α) (entries : List (String × α)) :
    (putEntry id value entries).lookup other =
      if other = id then some value else entries.lookup other := by
  induction entries with
  | nil => simp [putEntry, lookup_cons]
  | cons entry rest ih =>
    by_cases here : entry.1 = id
    · simp only [putEntry, here, if_pos, lookup_cons]
      split <;> rfl
    · simp only [putEntry, here, if_false, lookup_cons, ih]
      grind

@[simp]
theorem find?_put (registry : Registry α) (id other : String) (value : α) :
    (registry.put id value).find? other =
      if other = id then some value else registry.find? other :=
  lookup_putEntry id other value registry.entries

theorem lookup_filter_ne (id other : String) (entries : List (String × α)) :
    (entries.filter fun entry => entry.1 != id).lookup other =
      if other = id then none else entries.lookup other := by
  induction entries with
  | nil => simp
  | cons entry rest ih =>
    by_cases here : entry.1 = id
    · rw [List.filter_cons_of_neg (by simpa using here), ih, lookup_cons]
      grind
    · rw [List.filter_cons_of_pos (by simpa using here), lookup_cons, ih, lookup_cons]
      grind

@[simp]
theorem find?_erase (registry : Registry α) (id other : String) :
    (registry.erase id).find? other = if other = id then none else registry.find? other :=
  lookup_filter_ne id other registry.entries

end Registry

end Ls8.Service
