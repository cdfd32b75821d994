import Mathlib.Algebra.Group.Nat.Defs

/-!
# Counting in words

Program counters and counts of steps are words of 64 bits.

* `Grown`: a counter has grown by some number, exactly as long as the sum is a word, and else with
  a wrap around past the greatest one.
* `Grown.sub`: how far a counter has come since it showed another word.
* `toNat_ofNat_of_le`: a number up to a word is a word.
-/

namespace Ls8

/-- A counter that showed `before` has counted `n` times. -/
structure Grown (before after : UInt64) (n : Nat) : Prop where
  wrapped : after = before + .ofNat n
  exactly (fits : before.toNat + n < 2 ^ 64) : after.toNat = before.toNat + n

theorem grown_add (before : UInt64) (n : Nat) : Grown before (before + .ofNat n) n where
  wrapped := rfl
  exactly fits := by
    rw [UInt64.toNat_add, UInt64.toNat_ofNat_of_lt' (by unfold UInt64.size; omega),
      Nat.mod_eq_of_lt fits]

theorem grown_iff {before after : UInt64} {n : Nat} :
    Grown before after n ↔ after = before + .ofNat n :=
  ⟨Grown.wrapped, fun h => h ▸ grown_add before n⟩

namespace Grown

variable {first second third : UInt64} {m n : Nat}

theorem refl (first : UInt64) : Grown first first 0 :=
  grown_iff.mpr (UInt64.add_zero first).symm

theorem trans (h : Grown first second m) (h' : Grown second third n) :
    Grown first third (m + n) := by
  rw [grown_iff, h'.wrapped, h.wrapped, UInt64.ofNat_add, UInt64.add_assoc]

/-- Counting once. -/
theorem succ (h : Grown first second n) : Grown first (second + 1) (n + 1) :=
  h.trans (grown_add second 1)

/-- The counter tells how often it has counted, up to whole rounds. -/
theorem sub (h : Grown first second n) : second - first = .ofNat n := by
  rw [h.wrapped, UInt64.add_comm, UInt64.add_sub_cancel]

/-- A counter that began at 0 shows how often it has counted. -/
theorem toNat_of_zero (h : Grown 0 second n) (hn : n < 2 ^ 64) : second.toNat = n :=
  (h.exactly ((Nat.zero_add n).symm ▸ hn)).trans (Nat.zero_add n)

end Grown

theorem toNat_ofNat_of_le {n : Nat} {limit : UInt64} (h : n ≤ limit.toNat) :
    (UInt64.ofNat n).toNat = n :=
  UInt64.toNat_ofNat_of_lt' (Nat.lt_of_le_of_lt h limit.toNat_lt)

end Ls8
