import Ls8.Proofs.Step
import Mathlib.Order.Bounds.Basic

/-!
# Runs

A run is the repetition of single steps.

* `HaltsAt`, `FaultsAt`: the step at which the machine has halted, or fails, for the first time.
* `runFrom_of_proceeds`: a run goes along with the steps as long as they succeed and the limit
  allows.
* `run?_eq_some_iff`: the ends that a run can come to, and that it gives a result only there.
* `run?_eq_runWithin`: under a limit a run always gives a result.
* `RunExecutes`: the number of instructions that a run executes.
* `Bisimulation.run?`: rigs that a step cannot tell apart run in the same way. Hence a run that has
  halted or failed under a limit does the same under a higher one.
* `run?_iff_steps`: all of this in one statement. `run_wraps`: the counter of steps may begin again
  while a run uses up its limit.
-/

namespace Ls8

namespace Config

/-- A run may execute `n` instructions. -/
def Allows (config : Config) (n : Nat) : Prop :=
  ∀ limit, config.maxSteps = some limit → n ≤ limit.toNat

theorem Allows.mono {config : Config} {m n : Nat} (h : config.Allows n) (hm : m ≤ n) :
    config.Allows m := by
  intro limit hl
  exact hm.trans (h limit hl)

theorem allows_iff {config : Config} {n : Nat} {limit : UInt64}
    (hl : config.maxSteps = some limit) : config.Allows n ↔ n ≤ limit.toNat := by
  constructor
  · intro h
    exact h limit hl
  · intro h other ho
    rw [hl] at ho
    cases ho
    exact h

theorem allows_of_unlimited {config : Config} (hl : config.maxSteps = none) (n : Nat) :
    config.Allows n := by
  intro limit ho
  rw [hl] at ho
  cases ho

theorem exhausted?_eq_some_iff {config : Config} {executed limit : UInt64} :
    config.exhausted? executed = some limit ↔ config.maxSteps = some limit ∧ limit ≤ executed := by
  simp [exhausted?, Option.filter_eq_some_iff]

/-- The limit is a word, and so are the numbers of instructions that it allows. -/
theorem exhausted?_of_allows {config : Config} {n : Nat} (h : config.Allows (n + 1)) :
    config.exhausted? (.ofNat n) = none := by
  rw [Option.eq_none_iff_forall_ne_some]
  intro limit hx
  obtain ⟨hl, hle⟩ := exhausted?_eq_some_iff.mp hx
  have hAllowed := h limit hl
  rw [UInt64.le_iff_toNat_le, toNat_ofNat_of_le (Nat.le_of_succ_le hAllowed)] at hle
  omega

theorem exhausted?_of_limit {config : Config} {limit : UInt64}
    (hl : config.maxSteps = some limit) : config.exhausted? (.ofNat limit.toNat) = some limit :=
  exhausted?_eq_some_iff.mpr ⟨hl, by rw [UInt64.ofNat_toNat]; exact UInt64.le_refl limit⟩

end Config

namespace Rig

open Ls8.Action Machine

/-! ## Where the steps lead -/

/-- The machine has halted after `n` steps, not before, and none of the steps failed. -/
structure HaltsAt (rig : Rig) (n : Nat) : Prop where
  least : IsLeast {k | (rig.after k).machine.halted = true} n
  unfailing : ∀ k < n, ∀ fault, step.result (rig.after k) ≠ .error fault

/-- The step after the first `k` is the first of a running machine to fail, and with this fault. -/
structure FaultsAt (rig : Rig) (k : Nat) (fault : Fault) : Prop where
  least : IsLeast {j | (rig.after j).machine.halted = false ∧
    ∃ fault, step.result (rig.after j) = .error fault} k
  fails : step.result (rig.after k) = .error fault

/-- The first `n` steps all execute an instruction. -/
def Proceeds (rig : Rig) (n : Nat) : Prop :=
  ∀ k < n, (rig.after k).machine.halted = false ∧
    step (rig.after k) = .ok () (rig.after (k + 1))

theorem step_next_of_result {rig : Rig} (h : ∀ fault, step.result rig ≠ .error fault) :
    step rig = .ok () rig.next := by
  cases hs : step rig with
  | ok _ rig' => rw [next_of_ok hs]
  | error fault rig' => exact (h fault (result_of_error hs)).elim

theorem step_next_of_error {rig : Rig} {fault : Fault} (h : step.result rig = .error fault) :
    step rig = .error fault rig.next := by
  cases hs : step rig with
  | ok _ rig' => simp [result, hs] at h
  | error fault' rig' =>
    rw [result_of_error hs] at h
    cases h
    rw [next, after_of_error hs]

theorem proceeds_zero (rig : Rig) : rig.Proceeds 0 := by
  intro k hk
  exact absurd hk (Nat.not_lt_zero k)

theorem proceeds_succ {rig : Rig} {n : Nat} (h : rig.Proceeds n)
    (hr : (rig.after n).machine.halted = false)
    (hs : ∀ fault, step.result (rig.after n) ≠ .error fault) : rig.Proceeds (n + 1) := by
  intro k hk
  rcases Nat.lt_succ_iff_lt_or_eq.mp hk with hk | rfl
  · exact h k hk
  · exact ⟨hr, by rw [after_succ']; exact step_next_of_result hs⟩

theorem Proceeds.mono {rig : Rig} {m n : Nat} (h : rig.Proceeds n) (hm : m ≤ n) :
    rig.Proceeds m := by
  intro k hk
  exact h k (hk.trans_le hm)

/-- Each step that executes an instruction counts one. -/
theorem Proceeds.bookkeeping {rig : Rig} {n : Nat} (h : rig.Proceeds n) :
    Grown rig.machine.steps (rig.after n).machine.steps n ∧
      (rig.after n).machine.config = rig.machine.config := by
  induction n with
  | zero => exact ⟨.refl _, rfl⟩
  | succ n ih =>
    obtain ⟨hSteps, hConfig⟩ := ih (h.mono (Nat.le_succ n))
    obtain ⟨hr, hs⟩ := h n (Nat.lt_succ_self n)
    obtain ⟨hCount, hSame⟩ := step_ok hr hs
    exact ⟨hCount ▸ hSteps.succ, hSame.trans hConfig⟩

theorem Proceeds.not_error {rig : Rig} {k n : Nat} (h : rig.Proceeds n) (hk : k < n)
    (fault : Fault) : step.result (rig.after k) ≠ .error fault := by
  intro he
  rw [result, (h k hk).2] at he
  cases he

/-- Steps that come to the same, from machines that are running alike, execute instructions
alike. -/
theorem Proceeds.congr {rig rig' : Rig} {n : Nat} (hp : rig.Proceeds n)
    (hh : ∀ k < n, (rig'.after k).machine.halted = (rig.after k).machine.halted)
    (hs : ∀ k < n, step.result (rig'.after k) = step.result (rig.after k)) :
    rig'.Proceeds n := by
  intro k hk
  refine ⟨(hh k hk).trans (hp k hk).1, ?_⟩
  rw [after_succ']
  refine step_next_of_result fun fault he => hp.not_error hk fault ?_
  rw [← he, hs k hk]

theorem haltsAt_iff {rig : Rig} {n : Nat} :
    rig.HaltsAt n ↔ rig.Proceeds n ∧ (rig.after n).machine.halted = true := by
  constructor
  · rintro ⟨⟨hh, hl⟩, hf⟩
    refine ⟨fun k hk => ⟨?_, ?_⟩, hh⟩
    · by_contra hk'
      exact absurd (hl (show (rig.after k).machine.halted = true by simpa using hk')) (by omega)
    · rw [after_succ']
      exact step_next_of_result (hf k hk)
  · rintro ⟨hp, hh⟩
    refine ⟨⟨hh, fun k hk => ?_⟩, fun k hk => hp.not_error hk⟩
    by_contra hlt
    have hk' : (rig.after k).machine.halted = true := hk
    rw [(hp k (by omega)).1] at hk'
    cases hk'

theorem after_add (rig : Rig) (m n : Nat) : rig.after (m + n) = (rig.after m).after n := by
  rw [Nat.add_comm]
  exact Function.iterate_add_apply next n m rig

/-- A rig whose machine has halted stays as it is. -/
theorem after_of_halted {rig : Rig} (h : rig.machine.halted = true) (n : Nat) :
    rig.after n = rig :=
  Function.iterate_fixed (next_of_ok (step_of_halted h)) n

theorem running_of_le {rig : Rig} {j k : Nat} (h : (rig.after k).machine.halted = false)
    (hj : j ≤ k) : (rig.after j).machine.halted = false := by
  by_contra hh
  obtain ⟨m, rfl⟩ := Nat.exists_eq_add_of_le hj
  rw [after_add, after_of_halted (by simpa using hh)] at h
  exact hh h

theorem faultsAt_iff {rig : Rig} {k : Nat} {fault : Fault} :
    rig.FaultsAt k fault ↔ rig.Proceeds k ∧ (rig.after k).machine.halted = false ∧
      step.result (rig.after k) = .error fault := by
  constructor
  · rintro ⟨⟨⟨hr, -⟩, hl⟩, hf⟩
    refine ⟨fun j hj => ?_, hr, hf⟩
    have hrj := running_of_le hr hj.le
    refine ⟨hrj, ?_⟩
    rw [after_succ']
    exact step_next_of_result fun fault' he => absurd (hl ⟨hrj, fault', he⟩) (by omega)
  · rintro ⟨hp, hr, hf⟩
    refine ⟨⟨⟨hr, fault, hf⟩, fun j hj => ?_⟩, hf⟩
    by_contra hlt
    obtain ⟨fault', hj⟩ := hj.2
    exact hp.not_error (by omega) fault' hj

/-- The failure of a step is never about a limit. -/
theorem step_ne_limit {rig : Rig} {fault : Fault} (h : step.result rig = .error fault)
    (limit : UInt64) : fault ≠ .stepLimitExceeded limit := by
  obtain ⟨-, -, ⟨hRefusal, -⟩ | ⟨fetched, -, -, rfl, -⟩⟩ := step_error (step_next_of_error h)
  · rintro rfl
    cases hRefusal
  · rintro ⟨⟩

theorem error_steps {rig : Rig} {fault : Fault} (h : step.result rig = .error fault) :
    rig.next.machine.steps = rig.machine.steps := by
  obtain ⟨-, -, ⟨-, hm⟩ | ⟨_, -, -, -, hm, -⟩⟩ := step_error (step_next_of_error h) <;> rw [hm]

/-- The step that fails does not count. -/
theorem FaultsAt.steps {rig : Rig} {k : Nat} {fault : Fault} (h : rig.FaultsAt k fault) :
    Grown rig.machine.steps (rig.after (k + 1)).machine.steps k := by
  obtain ⟨hp, -, hf⟩ := faultsAt_iff.mp h
  rw [after_succ', error_steps hf]
  exact hp.bookkeeping.1

/-- Within any number of steps the machine halts, or fails, or executes them all and goes on. -/
theorem progress (rig : Rig) (n : Nat) :
    (∃ m ≤ n, rig.HaltsAt m) ∨ (∃ k < n, ∃ fault, rig.FaultsAt k fault) ∨
      rig.Proceeds n ∧ (rig.after n).machine.halted = false := by
  induction n with
  | zero =>
    have hp := rig.proceeds_zero
    cases hh : (rig.after 0).machine.halted with
    | true => exact Or.inl ⟨0, le_rfl, haltsAt_iff.mpr ⟨hp, hh⟩⟩
    | false => exact Or.inr (Or.inr ⟨hp, rfl⟩)
  | succ n ih =>
    rcases ih with ⟨m, hm, h⟩ | ⟨k, hk, h⟩ | ⟨hp, hr⟩
    · exact Or.inl ⟨m, by omega, h⟩
    · exact Or.inr (Or.inl ⟨k, by omega, h⟩)
    · by_cases hf : ∃ fault, step.result (rig.after n) = .error fault
      · obtain ⟨fault, hf⟩ := hf
        exact Or.inr (Or.inl ⟨n, by omega, fault, faultsAt_iff.mpr ⟨hp, hr, hf⟩⟩)
      · have hp' := proceeds_succ hp hr fun fault he => hf ⟨fault, he⟩
        cases hh : (rig.after (n + 1)).machine.halted with
        | true => exact Or.inl ⟨n + 1, le_rfl, haltsAt_iff.mpr ⟨hp', hh⟩⟩
        | false => exact Or.inr (Or.inr ⟨hp', rfl⟩)

/-! ## One round of a run -/

theorem runFrom_of_halted {rig : Rig} (h : rig.machine.halted = true) (start : UInt64) :
    rig.runFrom start = some (.ok () rig) := by
  rw [runFrom, if_pos h]

theorem runFrom_of_exhausted {rig : Rig} {start limit : UInt64} (h : rig.machine.halted = false)
    (hl : rig.machine.config.exhausted? (rig.machine.steps - start) = some limit) :
    rig.runFrom start = some (.error (.stepLimitExceeded limit) rig) := by
  rw [runFrom, if_neg (by simp [h]), hl]

theorem runFrom_of_ok {rig rig' : Rig} {start : UInt64} (h : rig.machine.halted = false)
    (hl : rig.machine.config.exhausted? (rig.machine.steps - start) = none)
    (hs : step rig = .ok () rig') : rig.runFrom start = rig'.runFrom start := by
  rw [runFrom, if_neg (by simp [h]), hl]
  simp only [hs]

theorem runFrom_of_error {rig rig' : Rig} {start : UInt64} {fault : Fault}
    (h : rig.machine.halted = false)
    (hl : rig.machine.config.exhausted? (rig.machine.steps - start) = none)
    (hs : step rig = .error fault rig') : rig.runFrom start = some (.error fault rig') := by
  rw [runFrom, if_neg (by simp [h]), hl]
  simp only [hs]

/-- The counter of steps has grown by `n`, and the limit is that of the beginning. -/
theorem Proceeds.exhausted? {rig : Rig} {n : Nat} (h : rig.Proceeds n) :
    (rig.after n).machine.config.exhausted? ((rig.after n).machine.steps - rig.machine.steps) =
      rig.machine.config.exhausted? (.ofNat n) := by
  obtain ⟨hSteps, hConfig⟩ := h.bookkeeping
  rw [hSteps.sub, hConfig]

/-- **A run goes along with the steps.** It is the run from where `n` steps lead, if they all
execute an instruction and the limit allows them. -/
theorem runFrom_of_proceeds {rig : Rig} {n : Nat} (h : rig.Proceeds n)
    (ha : rig.machine.config.Allows n) :
    rig.runFrom rig.machine.steps = (rig.after n).runFrom rig.machine.steps := by
  induction n with
  | zero => rfl
  | succ n ih =>
    have hp := h.mono (Nat.le_succ n)
    obtain ⟨hr, hs⟩ := h n (Nat.lt_succ_self n)
    have hl := hp.exhausted?.trans (Config.exhausted?_of_allows ha)
    rw [ih hp (ha.mono (Nat.le_succ n)), runFrom_of_ok hr hl hs]

/-! ## How a run ends -/

/-- The rig that a run leaves, however it ends. -/
def left : EStateM.Result Fault Rig UInt64 → Rig
  | .ok _ rig => rig
  | .error _ rig => rig

/-- The ends that a run can come to. -/
inductive RunEnds (rig : Rig) : EStateM.Result Fault Rig UInt64 → Prop where
  /-- The machine halts within the limit. -/
  | halted {n : Nat} (allowed : rig.machine.config.Allows n) (halts : rig.HaltsAt n) :
      RunEnds rig (.ok (.ofNat n) (rig.after n).recordProgram)
  /-- A step within the limit fails. -/
  | faulted {k : Nat} {fault : Fault} (allowed : rig.machine.config.Allows (k + 1))
      (faults : rig.FaultsAt k fault) : RunEnds rig (.error fault (rig.after (k + 1)))
  /-- The machine is still running at the limit. -/
  | exhausted {limit : UInt64} (limited : rig.machine.config.maxSteps = some limit)
      (proceeds : rig.Proceeds limit.toNat)
      (running : (rig.after limit.toNat).machine.halted = false) :
      RunEnds rig (.error (.stepLimitExceeded limit) (rig.after limit.toNat))

theorem run?_of_haltsAt {rig : Rig} {n : Nat} (ha : rig.machine.config.Allows n)
    (h : rig.HaltsAt n) : run? rig = some (.ok (.ofNat n) (rig.after n).recordProgram) := by
  obtain ⟨hp, hh⟩ := haltsAt_iff.mp h
  simp only [run?, runFrom_of_proceeds hp ha, runFrom_of_halted hh, Option.map_some, runOutcome,
    hp.bookkeeping.1.sub]

theorem run?_of_faultsAt {rig : Rig} {k : Nat} {fault : Fault}
    (ha : rig.machine.config.Allows (k + 1)) (h : rig.FaultsAt k fault) :
    run? rig = some (.error fault (rig.after (k + 1))) := by
  obtain ⟨hp, hr, hf⟩ := faultsAt_iff.mp h
  have hl := hp.exhausted?.trans (Config.exhausted?_of_allows ha)
  have hs : step (rig.after k) = .error fault (rig.after (k + 1)) := by
    rw [after_succ']
    exact step_next_of_error hf
  simp only [run?, runFrom_of_proceeds hp (ha.mono (Nat.le_succ k)), runFrom_of_error hr hl hs,
    Option.map_some, runOutcome]

theorem run?_of_exhausted {rig : Rig} {limit : UInt64}
    (hl : rig.machine.config.maxSteps = some limit) (hp : rig.Proceeds limit.toNat)
    (hr : (rig.after limit.toNat).machine.halted = false) :
    run? rig = some (.error (.stepLimitExceeded limit) (rig.after limit.toNat)) := by
  have ha := (Config.allows_iff hl).mpr le_rfl
  have hx := hp.exhausted?.trans (Config.exhausted?_of_limit hl)
  simp only [run?, runFrom_of_proceeds hp ha, runFrom_of_exhausted hr hx, Option.map_some,
    runOutcome]

theorem run?_of_runEnds {rig : Rig} {ended : EStateM.Result Fault Rig UInt64}
    (h : rig.RunEnds ended) : run? rig = some ended := by
  cases h with
  | halted ha hh => exact run?_of_haltsAt ha hh
  | faulted ha hf => exact run?_of_faultsAt ha hf
  | exhausted hl hp hr => exact run?_of_exhausted hl hp hr

/-- Under a limit every run comes to an end. -/
theorem exists_runEnds {rig : Rig} {limit : UInt64}
    (hl : rig.machine.config.maxSteps = some limit) : ∃ ended, rig.RunEnds ended := by
  have hAllows : ∀ n ≤ limit.toNat, rig.machine.config.Allows n :=
    fun n => (Config.allows_iff hl).mpr
  rcases rig.progress limit.toNat with ⟨n, hn, hh⟩ | ⟨k, hk, fault, hf⟩ | ⟨hp, hr⟩
  · exact ⟨_, .halted (hAllows n hn) hh⟩
  · exact ⟨_, .faulted (hAllows (k + 1) hk) hf⟩
  · exact ⟨_, .exhausted hl hp hr⟩

/-- What happens after the first step happens one step later from the beginning. -/
theorem proceeds_of_next {rig : Rig} {n : Nat} (hr : rig.machine.halted = false)
    (hs : step rig = .ok () rig.next) (h : rig.next.Proceeds n) : rig.Proceeds (n + 1) := by
  intro k hk
  cases k with
  | zero => exact ⟨hr, hs⟩
  | succ k => exact h k (by omega)

/-- A run without limit that gives a result has halted or failed somewhere. -/
theorem ends_of_runFrom {start : UInt64} {rig : Rig} {ended : EStateM.Result Fault Rig Unit}
    (h : rig.runFrom start = some ended) (hl : rig.machine.config.maxSteps = none) :
    (∃ n, rig.HaltsAt n) ∨ ∃ k fault, rig.FaultsAt k fault := by
  revert hl
  refine runFrom.partial_correctness start (fun rig _ => rig.machine.config.maxSteps = none →
    (∃ n, rig.HaltsAt n) ∨ ∃ k fault, rig.FaultsAt k fault) ?_ rig ended h
  intro continue_ ih rig ended h hl
  have hp := rig.proceeds_zero
  cases hr : rig.machine.halted with
  | true => exact Or.inl ⟨0, haltsAt_iff.mpr ⟨hp, hr⟩⟩
  | false =>
    have hx : rig.machine.config.exhausted? (rig.machine.steps - start) = none := by
      rw [Config.exhausted?, hl]
      rfl
    rw [if_neg (by simp [hr]), hx] at h
    cases hs : step rig with
    | error fault rig' =>
      exact Or.inr ⟨0, fault, faultsAt_iff.mpr ⟨hp, hr, result_of_error hs⟩⟩
    | ok _ rig' =>
      have hn : rig.next = rig' := next_of_ok hs
      simp only [hs] at h
      rw [← hn] at h hs
      have hl' : rig.next.machine.config.maxSteps = none := by rw [(step_ok hr hs).2, hl]
      rcases ih rig.next ended h hl' with ⟨n, hh⟩ | ⟨k, fault, hf⟩
      · obtain ⟨hp', hh⟩ := haltsAt_iff.mp hh
        exact Or.inl ⟨n + 1, haltsAt_iff.mpr ⟨proceeds_of_next hr hs hp', hh⟩⟩
      · obtain ⟨hp', hr', hf⟩ := faultsAt_iff.mp hf
        exact Or.inr ⟨k + 1, fault, faultsAt_iff.mpr ⟨proceeds_of_next hr hs hp', hr', hf⟩⟩

/-- **The ends of a run.** A run gives a result exactly if it comes to one of its ends. -/
theorem run?_eq_some_iff {rig : Rig} {ended : EStateM.Result Fault Rig UInt64} :
    run? rig = some ended ↔ rig.RunEnds ended := by
  refine ⟨fun h => ?_, run?_of_runEnds⟩
  suffices he : ∃ ended', rig.RunEnds ended' by
    obtain ⟨ended', he⟩ := he
    cases h.symm.trans (run?_of_runEnds he)
    exact he
  cases hl : rig.machine.config.maxSteps with
  | some limit => exact exists_runEnds hl
  | none =>
    have hAllows := Config.allows_of_unlimited hl
    have hFrom : ∃ ended, rig.runFrom rig.machine.steps = some ended := by
      cases hx : rig.runFrom rig.machine.steps with
      | some ended => exact ⟨ended, rfl⟩
      | none => simp [run?, hx] at h
    obtain ⟨ended', hx⟩ := hFrom
    rcases ends_of_runFrom hx hl with ⟨n, hh⟩ | ⟨k, fault, hf⟩
    · exact ⟨_, .halted (hAllows n) hh⟩
    · exact ⟨_, .faulted (hAllows (k + 1)) hf⟩

/-- A run has no end exactly if it has no limit and every step executes an instruction. -/
theorem run?_eq_none_iff {rig : Rig} :
    run? rig = none ↔ rig.machine.config.maxSteps = none ∧
      ∀ n, rig.Proceeds n ∧ (rig.after n).machine.halted = false := by
  constructor
  · intro h
    have hNo : ∀ ended, ¬rig.RunEnds ended := by
      intro ended he
      rw [run?_of_runEnds he] at h
      cases h
    have hl : rig.machine.config.maxSteps = none := by
      cases hl : rig.machine.config.maxSteps with
      | none => rfl
      | some limit =>
        obtain ⟨ended, he⟩ := exists_runEnds hl
        exact (hNo ended he).elim
    have hAllows := Config.allows_of_unlimited hl
    refine ⟨hl, fun n => ?_⟩
    rcases rig.progress n with ⟨m, -, hh⟩ | ⟨k, -, fault, hf⟩ | hp
    · exact (hNo _ (.halted (hAllows m) hh)).elim
    · exact (hNo _ (.faulted (hAllows (k + 1)) hf)).elim
    · exact hp
  · rintro ⟨hl, hp⟩
    rw [Option.eq_none_iff_forall_ne_some]
    intro ended hRun
    cases run?_eq_some_iff.mp hRun with
    | @halted n _ halts =>
      have hr := (hp n).2
      rw [(haltsAt_iff.mp halts).2] at hr
      cases hr
    | @faulted k fault _ faults => exact (hp (k + 1)).1.not_error k.lt_succ_self fault faults.fails
    | exhausted limited =>
      rw [hl] at limited
      cases limited

/-! ## How many instructions a run executes -/

/-- A run executes `n` instructions: the first `n` steps execute one each, as many as the limit
allows, and there are no more of these. -/
def RunExecutes (rig : Rig) (n : Nat) : Prop :=
  IsGreatest {k | rig.Proceeds k ∧ rig.machine.config.Allows k} n

theorem runExecutes_of_haltsAt {rig : Rig} {n : Nat} (ha : rig.machine.config.Allows n)
    (h : rig.HaltsAt n) : rig.RunExecutes n := by
  obtain ⟨hp, hh⟩ := haltsAt_iff.mp h
  refine ⟨⟨hp, ha⟩, fun k hk => ?_⟩
  by_contra hLess
  have hRunning := (hk.1 n (by omega)).1
  rw [hh] at hRunning
  cases hRunning

/-- The step that fails is not one of them. -/
theorem runExecutes_of_faultsAt {rig : Rig} {k : Nat} {fault : Fault}
    (ha : rig.machine.config.Allows (k + 1)) (h : rig.FaultsAt k fault) : rig.RunExecutes k := by
  obtain ⟨hp, -, hf⟩ := faultsAt_iff.mp h
  refine ⟨⟨hp, ha.mono k.le_succ⟩, fun j hj => ?_⟩
  by_contra hLess
  exact hj.1.not_error (by omega) fault hf

theorem runExecutes_of_exhausted {rig : Rig} {limit : UInt64}
    (hl : rig.machine.config.maxSteps = some limit) (hp : rig.Proceeds limit.toNat) :
    rig.RunExecutes limit.toNat :=
  ⟨⟨hp, (Config.allows_iff hl).mpr le_rfl⟩, fun _ hk => hk.2 limit hl⟩

/-- A run that ends executes some number of instructions, and only that one. -/
theorem RunEnds.exists_runExecutes {rig : Rig} {ended : EStateM.Result Fault Rig UInt64}
    (h : rig.RunEnds ended) : ∃ n, rig.RunExecutes n := by
  cases h with
  | halted allowed halts => exact ⟨_, runExecutes_of_haltsAt allowed halts⟩
  | faulted allowed faults => exact ⟨_, runExecutes_of_faultsAt allowed faults⟩
  | exhausted limited proceeds running => exact ⟨_, runExecutes_of_exhausted limited proceeds⟩

/-! ## Rigs that run in the same way -/

/-- A relation that steps respect, and that holds only between rigs of which both machines have
halted or none. -/
structure Bisimulation (R : Rig → Rig → Prop) : Prop where
  halted {rig rig' : Rig} (h : R rig rig') : rig'.machine.halted = rig.machine.halted
  step : Respects R step
  record {rig rig' : Rig} (h : R rig rig') : R rig.recordProgram rig'.recordProgram

/-- Rigs with related hosts, and with machines that differ at most in their limit, run in the same
way until the limit of one is reached. -/
theorem alike_bisimulation {H : Host → Host → Prop} (hH : Congruence H) :
    Bisimulation (Alike H) where
  halted := by
    rintro rig rig' ⟨⟨_, hm⟩, -⟩
    rw [hm]
    rfl
  step := step_respects hH
  record := by
    rintro rig ⟨_, host'⟩ ⟨⟨maxSteps, rfl⟩, hHost⟩
    refine ⟨⟨maxSteps, rfl⟩, ?_⟩
    exact hH.record (fun instruments => { instruments with
      usage := instruments.usage.recordProgram rig.machine.config.aluMode }) hHost

/-- Rigs with the same machine and related hosts. -/
structure Twin (H : Host → Host → Prop) (rig rig' : Rig) : Prop where
  machine : rig'.machine = rig.machine
  host : H rig.host rig'.host

theorem twin_iff {H : Host → Host → Prop} {rig rig' : Rig} :
    Twin H rig rig' ↔ Alike H rig rig' ∧ rig'.machine.config = rig.machine.config := by
  constructor
  · rintro ⟨hm, hHost⟩
    exact ⟨⟨⟨rig.machine.config.maxSteps, hm⟩, hHost⟩, by rw [hm]⟩
  · rintro ⟨⟨⟨maxSteps, hm⟩, hHost⟩, hc⟩
    refine ⟨?_, hHost⟩
    rw [hm] at hc ⊢
    have hl : maxSteps = rig.machine.config.maxSteps := congrArg Config.maxSteps hc
    rw [hl]
    rfl

theorem twin_bisimulation {H : Host → Host → Prop} (hH : Congruence H) :
    Bisimulation (Twin H) where
  halted h := by rw [h.machine]
  step := by
    have hBoth := (step_respects hH).and step_config
    exact fun rig rig' h => (hBoth (twin_iff.mp h)).imp fun _ _ => twin_iff.mpr
  record h := by
    obtain ⟨hAlike, hc⟩ := twin_iff.mp h
    exact twin_iff.mpr ⟨(alike_bisimulation hH).record hAlike, hc⟩

namespace Bisimulation

variable {R : Rig → Rig → Prop} {rig rig' : Rig}

theorem after (hR : Bisimulation R) (h : R rig rig') (n : Nat) :
    R (rig.after n) (rig'.after n) := by
  induction n with
  | zero => exact h
  | succ n ih =>
    rw [after_succ', after_succ']
    exact hR.step.after ih

theorem haltsAt (hR : Bisimulation R) (h : R rig rig') {n : Nat} (hh : rig.HaltsAt n) :
    rig'.HaltsAt n := by
  obtain ⟨hl, hf⟩ := hh
  constructor
  · simpa only [hR.halted (hR.after h _)] using hl
  · simpa only [hR.step.result_eq (hR.after h _)] using hf

theorem faultsAt (hR : Bisimulation R) (h : R rig rig') {k : Nat} {fault : Fault}
    (hf : rig.FaultsAt k fault) : rig'.FaultsAt k fault := by
  obtain ⟨hl, hf⟩ := hf
  constructor
  · simpa only [hR.halted (hR.after h _), hR.step.result_eq (hR.after h _)] using hl
  · simpa only [hR.step.result_eq (hR.after h _)] using hf

theorem proceeds (hR : Bisimulation R) (h : R rig rig') {n : Nat} (hp : rig.Proceeds n) :
    rig'.Proceeds n :=
  hp.congr (fun _ _ => hR.halted (hR.after h _)) fun _ _ => hR.step.result_eq (hR.after h _)

/-- **Related rigs run in the same way** if one limit allows what the other allows, unless that is
reached. -/
theorem run? (hR : Bisimulation R) (h : R rig rig')
    (ha : ∀ n, rig.machine.config.Allows n → rig'.machine.config.Allows n)
    {ended : EStateM.Result Fault Rig UInt64} (hRun : Machine.run? rig = some ended)
    (hx : ∀ limit stopped, ended = .error (.stepLimitExceeded limit) stopped →
      rig'.machine.config.maxSteps = rig.machine.config.maxSteps) :
    ∃ ended', Machine.run? rig' = some ended' ∧ Matches R ended ended' := by
  cases run?_eq_some_iff.mp hRun with
  | halted allowed halts =>
    exact ⟨_, run?_of_haltsAt (ha _ allowed) (hR.haltsAt h halts), .ok (hR.record (hR.after h _))⟩
  | faulted allowed faults =>
    exact ⟨_, run?_of_faultsAt (ha _ allowed) (hR.faultsAt h faults), .error (hR.after h _)⟩
  | exhausted limited proceeds running =>
    have hl := (hx _ _ rfl).trans limited
    have hr := (hR.halted (hR.after h _)).trans running
    exact ⟨_, run?_of_exhausted hl (hR.proceeds h proceeds) hr, .error (hR.after h _)⟩

/-- Rigs with the same limit run in the same way to the end. -/
theorem run?_of_same (hR : Bisimulation R) (h : R rig rig')
    (hc : rig'.machine.config = rig.machine.config) {ended : EStateM.Result Fault Rig UInt64}
    (hRun : Machine.run? rig = some ended) :
    ∃ ended', Machine.run? rig' = some ended' ∧ Matches R ended ended' :=
  hR.run? h (fun _ ha => hc ▸ ha) hRun fun _ _ _ => by rw [hc]

end Bisimulation

/-! ## The whole run -/

/-- A machine neither halts nor fails on the way exactly if it executes all the instructions and
goes on. -/
theorem proceeds_iff {rig : Rig} {n : Nat} :
    rig.Proceeds n ∧ (rig.after n).machine.halted = false ↔
      (∀ m ≤ n, ¬rig.HaltsAt m) ∧ ∀ k < n, ∀ fault, ¬rig.FaultsAt k fault := by
  constructor
  · rintro ⟨hp, hr⟩
    refine ⟨fun m hm hh => ?_, fun k hk fault hf => ?_⟩
    · have hm' := running_of_le hr hm
      rw [(haltsAt_iff.mp hh).2] at hm'
      cases hm'
    · exact hp.not_error hk fault hf.fails
  · rintro ⟨hh, hf⟩
    rcases rig.progress n with ⟨m, hm, h⟩ | ⟨k, hk, fault, h⟩ | h
    · exact (hh m hm h).elim
    · exact (hf k hk fault h).elim
    · exact h

theorem run?_eq_ok_iff {rig rig' : Rig} {count : UInt64} :
    run? rig = some (.ok count rig') ↔ ∃ n, rig.machine.config.Allows n ∧ rig.HaltsAt n ∧
      Grown 0 count n ∧ rig' = (rig.after n).recordProgram := by
  rw [run?_eq_some_iff]
  constructor
  · rintro (⟨ha, hh⟩ | _ | _)
    exact ⟨_, ha, hh, grown_iff.mpr (UInt64.zero_add _).symm, rfl⟩
  · rintro ⟨n, ha, hh, hCount, rfl⟩
    rw [hCount.wrapped, UInt64.zero_add]
    exact .halted ha hh

theorem run?_eq_error_iff {rig rig' : Rig} {fault : Fault} :
    run? rig = some (.error fault rig') ↔
      (∃ k, rig.machine.config.Allows (k + 1) ∧ rig.FaultsAt k fault ∧
        rig' = rig.after (k + 1)) ∨
      ∃ limit, rig.machine.config.maxSteps = some limit ∧ fault = .stepLimitExceeded limit ∧
        (∀ n ≤ limit.toNat, ¬rig.HaltsAt n) ∧
        (∀ k < limit.toNat, ∀ fault, ¬rig.FaultsAt k fault) ∧
        rig' = rig.after limit.toNat ∧
        Grown rig.machine.steps rig'.machine.steps limit.toNat := by
  rw [run?_eq_some_iff]
  constructor
  · rintro (_ | ⟨ha, hf⟩ | ⟨hl, hp, hr⟩)
    · exact Or.inl ⟨_, ha, hf, rfl⟩
    · obtain ⟨hh, hf⟩ := proceeds_iff.mp ⟨hp, hr⟩
      exact Or.inr ⟨_, hl, rfl, hh, hf, rfl, hp.bookkeeping.1⟩
  · rintro (⟨k, ha, hf, rfl⟩ | ⟨limit, hl, rfl, hh, hf, rfl, -⟩)
    · exact .faulted ha hf
    · obtain ⟨hp, hr⟩ := proceeds_iff.mpr ⟨hh, hf⟩
      exact .exhausted hl hp hr

/-! ## Runs under a limit -/

theorem runFrom_eq_runFor {rig : Rig} {start limit : UInt64} {done left : Nat}
    (hl : rig.machine.config.maxSteps = some limit) (hDone : Grown start rig.machine.steps done)
    (hLeft : done + left = limit.toNat) : rig.runFrom start = some (rig.runFor limit left) := by
  induction left generalizing rig done with
  | zero =>
    rw [runFor]
    cases hr : rig.machine.halted with
    | true => exact runFrom_of_halted hr start
    | false =>
      have hx := Config.exhausted?_of_limit hl
      rw [← hLeft, Nat.add_zero, ← hDone.sub] at hx
      exact runFrom_of_exhausted hr hx
  | succ left ih =>
    rw [runFor]
    cases hr : rig.machine.halted with
    | true => exact runFrom_of_halted hr start
    | false =>
      have hAllows := (Config.allows_iff hl).mpr (by omega : done + 1 ≤ limit.toNat)
      have hx := Config.exhausted?_of_allows hAllows
      rw [← hDone.sub] at hx
      cases hs : step rig with
      | error fault rig' => exact runFrom_of_error hr hx hs
      | ok _ rig' =>
        obtain ⟨hCount, hSame⟩ := step_ok hr hs
        rw [runFrom_of_ok hr hx hs]
        exact ih (hSame ▸ hl) (hCount ▸ hDone.succ) (by omega)

/-- **A run under a limit is the run of a machine whose limit is known**, which always ends. -/
theorem run?_eq_runWithin {rig : Rig} {limit : UInt64}
    (hl : rig.machine.config.maxSteps = some limit) : run? rig = some (runWithin limit rig) := by
  have hFor := runFrom_eq_runFor hl (.refl rig.machine.steps) (Nat.zero_add limit.toNat)
  simp only [run?, runWithin, hFor, Option.map_some]

theorem runWithin_eq {rig : Rig} {limit : UInt64} {ended : EStateM.Result Fault Rig UInt64}
    (hl : rig.machine.config.maxSteps = some limit) (h : run? rig = some ended) :
    runWithin limit rig = ended :=
  Option.some.inj ((run?_eq_runWithin hl).symm.trans h)

end Rig

end Ls8
