import Ls8.Lookup

/-!
# Counters by key

`Counts κ` holds a number for each key that was ever counted. `count_increment` says what
counting a key changes, and `total_increment` that the total grows by one.
-/

namespace Ls8

/-- The keys counted so far, in the order of their first appearance, each with its count. -/
structure Counts (κ : Type) where
  entries : List (κ × Nat) := []
  deriving DecidableEq

namespace Counts

variable {κ : Type} [DecidableEq κ]

def count (counts : Counts κ) (key : κ) : Nat := (counts.entries.lookup key).getD 0

/-- The entries with `key` counted once more. -/
def incrementEntry (key : κ) : List (κ × Nat) → List (κ × Nat)
  | [] => [(key, 1)]
  | (other, n) :: rest =>
    if other = key then (other, n + 1) :: rest else (other, n) :: incrementEntry key rest

def increment (counts : Counts κ) (key : κ) : Counts κ := ⟨incrementEntry key counts.entries⟩

def total (counts : Counts κ) : Nat :=
  counts.entries.foldr (fun entry sum => entry.2 + sum) 0

theorem lookup_incrementEntry (key other : κ) (entries : List (κ × Nat)) :
    ((incrementEntry key entries).lookup other).getD 0 =
      (entries.lookup other).getD 0 + if other = key then 1 else 0 := by
  induction entries with
  | nil =>
    simp only [incrementEntry, lookup_cons, List.lookup_nil]
    split <;> rfl
  | cons entry rest ih =>
    by_cases here : entry.1 = key
    · simp only [incrementEntry, here, if_pos, lookup_cons]
      split <;> simp
    · simp only [incrementEntry, here, if_false, lookup_cons]
      grind

@[simp]
theorem count_increment (counts : Counts κ) (key other : κ) :
    (counts.increment key).count other =
      counts.count other + if other = key then 1 else 0 :=
  lookup_incrementEntry key other counts.entries

@[simp]
theorem total_increment (counts : Counts κ) (key : κ) :
    (counts.increment key).total = counts.total + 1 := by
  obtain ⟨entries⟩ := counts
  induction entries with
  | nil => rfl
  | cons entry rest ih =>
    obtain ⟨first, n⟩ := entry
    simp only [total, increment, incrementEntry] at ih ⊢
    split <;> simp_all <;> omega

end Counts

end Ls8
