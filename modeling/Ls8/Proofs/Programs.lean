import Ls8.Proofs.Attempts
import Ls8.Proofs.Control

/-!
# Programs that are counted

A run that comes to its end counts a program. Its last instruction was HLT then, unless the machine
had halted before the run began.

* `executed?_eq_halt_iff`, `halt_mem_executed_iff`: HLT is the instruction that halts a machine, in
  one step and in several.
* `Rig.executesHalt`: a run executes HLT. `executesHalt_iff`: it does so exactly if it finds the
  machine running and comes to its end.
* `left_programs`: what a run adds to the counts of programs.
* `Runs`: runs of one machine in a row. `Runs.countP_executesHalt`: one at most executes HLT.
* `programs_counted`: what one run adds, and what several add.
-/

namespace Ls8.Rig

open Ls8.Action Machine

variable {rig rig' : Rig}

/-! ## HLT among the instructions -/

/-- A step executes HLT exactly if it halts the machine. -/
theorem executed?_eq_halt_iff (hr : rig.machine.halted = false) (h : step rig = .ok () rig') :
    rig.executed? = some (.control .halt) ↔ rig'.machine.halted = true := by
  obtain ⟨fetched, opcode, rig₁, -, hExecuted, hExecute, rfl⟩ := exists_executed? hr h
  have hTraced : (traced rig).machine.halted = false := hr
  rw [hExecuted, Option.some_inj]
  exact (execute_executes hTraced hExecute).halted.symm

theorem halt_mem_executed_iff {n : Nat} (h : rig.Proceeds n) :
    .control .halt ∈ executed (rig.departures n) ↔
      rig.machine.halted = false ∧ (rig.after n).machine.halted = true := by
  induction n with
  | zero =>
    have hStart : rig.after 0 = rig := rfl
    rw [hStart]
    refine iff_of_false List.not_mem_nil ?_
    rintro ⟨hr, hh⟩
    rw [hr] at hh
    cases hh
  | succ n ih =>
    obtain ⟨hr, hs⟩ := h n n.lt_succ_self
    have hFirst : rig.machine.halted = false := running_of_le hr n.zero_le
    rw [departures, executed_append, executed_singleton, List.mem_append, Option.mem_toList,
      ih (h.mono n.le_succ), executed?_eq_halt_iff hr hs, hr]
    simp [hFirst]

/-! ## Runs that execute HLT -/

/-- A run executes HLT. One that goes on forever does not (`halt_not_mem_of_endless`). -/
def executesHalt (rig : Rig) : Bool :=
  (executed (rig.attempts?.getD [])).contains (.control .halt)

theorem halt_not_mem_of_endless (h : run? rig = none) (n : Nat) :
    .control .halt ∉ executed (rig.departures n) := by
  obtain ⟨-, hGoesOn⟩ := run?_eq_none_iff.mp h
  obtain ⟨hp, hr⟩ := hGoesOn n
  rw [halt_mem_executed_iff hp, hr]
  exact fun hHalted => Bool.false_ne_true hHalted.2

theorem executesHalt_of_attempts {attempts : List Rig} (h : rig.attempts? = some attempts) :
    rig.executesHalt = true ↔ .control .halt ∈ executed attempts := by
  rw [executesHalt, h, Option.getD_some, List.contains_iff_mem]

variable {ended : EStateM.Result Fault Rig UInt64} {fault : Fault}

theorem not_exists_ok (fault : Fault) (rig' : Rig) :
    ¬∃ (n : UInt64) (last : Rig), EStateM.Result.error fault rig' = .ok n last := by
  rintro ⟨_, _, h⟩
  cases h

/-- **A run executes HLT exactly if it finds the machine running and comes to its end.** -/
theorem executesHalt_iff (ends : run? rig = some ended) : rig.executesHalt = true ↔
    rig.machine.halted = false ∧ ∃ n rig', ended = .ok n rig' := by
  cases run?_eq_some_iff.mp ends with
  | @halted n allowed halts =>
    obtain ⟨hp, hh⟩ := haltsAt_iff.mp halts
    rw [executesHalt_of_attempts (attempts?_of_haltsAt allowed halts), halt_mem_executed_iff hp]
    exact and_congr_right fun _ => iff_of_true hh ⟨_, _, rfl⟩
  | @faulted k fault allowed faults =>
    -- The step that fails executes nothing, whether or not it halts the machine.
    obtain ⟨hp, hr, hf⟩ := faultsAt_iff.mp faults
    rw [executesHalt_of_attempts (attempts?_of_faultsAt allowed faults), departures,
      executed_append, executed_singleton, executed?_of_error hf, Option.toList_none,
      List.append_nil, halt_mem_executed_iff hp, hr]
    exact iff_of_false (fun h => Bool.false_ne_true h.2) fun h => not_exists_ok _ _ h.2
  | @exhausted limit limited proceeds running =>
    rw [executesHalt_of_attempts (attempts?_of_exhausted limited proceeds running),
      halt_mem_executed_iff proceeds, running]
    exact iff_of_false (fun h => Bool.false_ne_true h.2) fun h => not_exists_ok _ _ h.2

/-- A run of a machine that has halted has nothing to execute. -/
theorem executesHalt_of_halted (h : rig.machine.halted = true) : rig.executesHalt = false := by
  rw [executesHalt, attempts?, attemptsFrom_of_halted h]
  rfl

/-! ## What a run adds -/

/-- The programs of a mode that were counted so far. -/
def programs (rig : Rig) (mode : AluMode) : Nat := rig.usage.programs.count mode

/-- The mode of the arithmetic unit, under which runs are counted. -/
def aluMode (rig : Rig) : AluMode := rig.machine.config.aluMode

/-- A run comes to its end: it executes HLT, or the machine had halted before. -/
def completes (rig : Rig) : Bool := rig.executesHalt || rig.machine.halted

theorem completes_of_executesHalt (h : rig.executesHalt = true) : rig.completes = true := by
  rw [completes, h, Bool.true_or]

theorem completes_of_halted (h : rig.machine.halted = true) : rig.completes = true := by
  rw [completes, h, Bool.or_true]

theorem run?_of_halted (h : rig.machine.halted = true) :
    run? rig = some (.ok 0 rig.recordProgram) :=
  run?_of_haltsAt (fun _ _ => Nat.zero_le _) (haltsAt_iff.mpr ⟨rig.proceeds_zero, h⟩)

theorem completes_iff (ends : run? rig = some ended) :
    rig.completes = true ↔ ∃ n rig', ended = .ok n rig' := by
  rw [completes, Bool.or_eq_true, executesHalt_iff ends]
  cases hr : rig.machine.halted with
  | false => simp
  | true =>
    cases ends.symm.trans (run?_of_halted hr)
    exact iff_of_true (Or.inr rfl) ⟨0, _, rfl⟩

theorem completes_of_error (ends : run? rig = some (.error fault rig')) :
    rig.completes = false := by
  rw [Bool.eq_false_iff, ne_eq, completes_iff ends]
  exact not_exists_ok fault rig'

theorem programs_of_error (ends : run? rig = some (.error fault rig')) (mode : AluMode) :
    rig'.programs mode = rig.programs mode := by
  obtain ⟨_, -, hCounted⟩ := counted_run ends
  exact congrArg (·.count mode) (hCounted.failed rfl)

theorem left_config (ends : run? rig = some ended) :
    (left ended).machine.config = rig.machine.config := by
  obtain ⟨n, -, -, rfl | ⟨fault, rfl⟩⟩ := attempts?_of_run? ends
  · exact after_config rig n
  · exact after_config rig n

theorem left_halted (ends : run? rig = some ended) (h : rig.completes = true) :
    (left ended).machine.halted = true := by
  obtain ⟨n, rig', rfl⟩ := (completes_iff ends).mp h
  obtain ⟨_, -, hHalts, -, rfl⟩ := run?_eq_ok_iff.mp ends
  exact (haltsAt_iff.mp hHalts).2

theorem left_programs (ends : run? rig = some ended) (mode : AluMode) :
    (left ended).programs mode =
      rig.programs mode + if mode = rig.aluMode ∧ rig.completes = true then 1 else 0 := by
  cases ended with
  | ok n rig' =>
    obtain ⟨_, -, hCounted⟩ := counted_run ends
    have hCompletes : rig.completes = true := (completes_iff ends).mpr ⟨n, rig', rfl⟩
    have hPrograms := hCounted.completed rfl
    rw [programs, programs, left, hPrograms, Counts.count_increment]
    simp only [hCompletes, and_true]
    rfl
  | error fault rig' =>
    rw [completes_of_error ends, if_neg fun h => Bool.false_ne_true h.2]
    exact programs_of_error ends mode

/-- What a run adds to the counts of programs: one in the mode of its machine, if it comes to its
end. That this is one exactly for the runs that execute HLT is true only of machines that were
running before. -/
structure ProgramCounted (rig : Rig) (ended : EStateM.Result Fault Rig UInt64) : Prop where
  own : (left ended).programs rig.aluMode =
    rig.programs rig.aluMode + if rig.completes then 1 else 0
  other {mode : AluMode} (different : mode ≠ rig.aluMode) :
    (left ended).programs mode = rig.programs mode
  failed {fault : Fault} {rig' : Rig} (failed : ended = .error fault rig') :
    rig.executesHalt = false ∧ (left ended).programs rig.aluMode = rig.programs rig.aluMode
  exact_iff : (left ended).programs rig.aluMode =
      rig.programs rig.aluMode + (if rig.executesHalt then 1 else 0) ↔
    rig.machine.halted = false

theorem programCounted (ends : run? rig = some ended) : ProgramCounted rig ended where
  own := by
    rw [left_programs ends]
    simp
  other different := by
    rw [left_programs ends, if_neg fun h => different h.1, Nat.add_zero]
  failed := by
    rintro fault rig' rfl
    have hFails := completes_of_error ends
    rw [completes, Bool.or_eq_false_iff] at hFails
    exact ⟨hFails.1, programs_of_error ends rig.aluMode⟩
  exact_iff := by
    rw [left_programs ends]
    cases hr : rig.machine.halted with
    | true => simp [completes, hr, executesHalt_of_halted hr]
    | false => simp [completes, hr]

/-! ## Runs in a row -/

/-- Runs of one machine in a row, each with a console of its own: the rigs that they begin with, and
the one that the last of them leaves. -/
inductive Runs (first : Rig) : List Rig → Rig → Prop where
  | start : Runs first [] first
  | run {calls : List Rig} {rig : Rig} (before : Runs first calls rig) (console : Console)
      {ended : EStateM.Result Fault Rig UInt64}
      (ends : run? (rig.withConsole console) = some ended) :
      Runs first (calls ++ [rig.withConsole console]) (left ended)

/-- No run executes HLT that finds the machine halted. -/
theorem countP_completes (calls : List Rig) : calls.countP completes =
    calls.countP executesHalt + calls.countP fun call => call.machine.halted := by
  induction calls with
  | nil => rfl
  | cons call calls ih =>
    rw [List.countP_cons, List.countP_cons, List.countP_cons, ih]
    cases hr : call.machine.halted with
    | true =>
      simp [completes, hr, executesHalt_of_halted hr]
      omega
    | false =>
      simp [completes, hr]
      omega

/-- What some runs in a row add to the counts of programs. At most one of them executes HLT, but one
that finds the machine halted is counted, too. -/
structure ProgramsCounted (first : Rig) (calls : List Rig) (last : Rig) : Prop where
  own : last.programs first.aluMode = first.programs first.aluMode + calls.countP completes
  other {mode : AluMode} (different : mode ≠ first.aluMode) :
    last.programs mode = first.programs mode
  once : calls.countP executesHalt ≤ 1
  exact_iff : last.programs first.aluMode =
      first.programs first.aluMode + calls.countP executesHalt ↔
    ∀ call ∈ calls, call.machine.halted = false

variable {first last : Rig} {calls : List Rig}

theorem Runs.aluMode (h : Runs first calls last) : last.aluMode = first.aluMode := by
  induction h with
  | start => rfl
  | run before console ends ih => exact (congrArg Config.aluMode (left_config ends)).trans ih

theorem Runs.programs (h : Runs first calls last) (mode : AluMode) :
    last.programs mode =
      first.programs mode + if mode = first.aluMode then calls.countP completes else 0 := by
  induction h with
  | start => simp
  | @run calls rig before console ended ends ih =>
    have hSame : (rig.withConsole console).programs mode = rig.programs mode := rfl
    have hMode : (rig.withConsole console).aluMode = first.aluMode := before.aluMode
    rw [left_programs ends, hSame, ih, hMode, List.countP_append, List.countP_singleton]
    by_cases hOwn : mode = first.aluMode
    · simp only [hOwn, if_true, true_and, Nat.add_assoc]
    · simp only [hOwn, if_false, false_and, Nat.add_zero]

/-- One more run on the console at hand. -/
theorem Runs.again (h : Runs first calls rig) (ends : run? rig = some ended) :
    Runs first (calls ++ [rig]) (left ended) :=
  h.run rig.host.console ends

/-- The run that executes HLT leaves nothing to execute for any later one. -/
theorem Runs.countP_executesHalt (h : Runs first calls last) :
    calls.countP executesHalt ≤ if last.machine.halted then 1 else 0 := by
  induction h with
  | start => exact Nat.zero_le _
  | @run calls rig before console ended ends ih =>
    rw [List.countP_append, List.countP_singleton]
    cases hr : rig.machine.halted with
    | true =>
      have hHalted : (rig.withConsole console).machine.halted = true := hr
      have hLeft := left_halted ends (completes_of_halted hHalted)
      rw [hr] at ih
      rw [hLeft, executesHalt_of_halted hHalted]
      exact ih
    | false =>
      -- None of the runs so far has executed HLT.
      rw [hr] at ih
      cases hx : (rig.withConsole console).executesHalt with
      | true =>
        have hLeft := left_halted ends (completes_of_executesHalt hx)
        rw [hLeft]
        exact Nat.add_le_add_right ih 1
      | false =>
        exact ih.trans (Nat.zero_le _)

theorem Runs.counted (h : Runs first calls last) : ProgramsCounted first calls last where
  own := by rw [h.programs, if_pos rfl]
  other different := by rw [h.programs, if_neg different, Nat.add_zero]
  once := by
    refine h.countP_executesHalt.trans ?_
    split
    · exact le_rfl
    · exact Nat.zero_le 1
  exact_iff := by
    rw [h.programs, if_pos rfl, countP_completes, ← Nat.add_assoc, Nat.add_eq_left,
      List.countP_eq_zero]
    simp only [Bool.not_eq_true]

/-- **A run counts a program exactly if it executes HLT, or finds the machine halted.** Of several
runs in a row one at most executes HLT, but all that come after the machine has halted count a
program each. -/
theorem programs_counted (first : Rig) :
    (run? first = none → ∀ n, .control .halt ∉ executed (first.departures n)) ∧
    (∀ ended, run? first = some ended → ProgramCounted first ended) ∧
    ∀ calls last, Runs first calls last → ProgramsCounted first calls last :=
  ⟨halt_not_mem_of_endless, fun _ ends => programCounted ends, fun _ _ h => h.counted⟩

/-- A machine whose program is a single HLT. -/
def halting : Rig where
  machine := { Machine.new {} with memory := Memory.zero.overlay [1] 0 }

/-- The first of two runs executes HLT, and the second one finds the machine halted. -/
theorem programs_counted_halting : ∃ calls last, Runs halting calls last ∧
    calls.map executesHalt = [true, false] ∧ last.programs .compatible = 2 ∧
    ProgramsCounted halting calls last := by
  have hStep : step.result halting = .ok () := by decide +kernel
  have hProceeds : halting.Proceeds 1 := by
    refine proceeds_succ halting.proceeds_zero rfl fun fault he => ?_
    cases hStep.symm.trans he
  have hHalted : (halting.after 1).machine.halted = true := by decide +kernel
  have hEnds := run?_of_haltsAt (Config.allows_of_unlimited rfl 1)
    (haltsAt_iff.mpr ⟨hProceeds, hHalted⟩)
  have hFirst := (executesHalt_iff hEnds).mpr ⟨rfl, 1, _, rfl⟩
  have hAgain := left_halted hEnds (completes_of_executesHalt hFirst)
  have hRuns := (Runs.start.again hEnds).again (run?_of_halted hAgain)
  have hSecond := executesHalt_of_halted hAgain
  refine ⟨_, _, hRuns, ?_, by decide +kernel, (programs_counted halting).2.2 _ _ hRuns⟩
  simp only [List.nil_append, List.cons_append, List.map_cons, List.map_nil, hFirst, hSecond]

/-- A machine without a program: its first opcode is not recognized. -/
def blank : Rig where
  machine := Machine.new {}

/-- The first run halts the machine at the opcode and fails, and the next two count a program each.
None of the three has executed HLT. -/
theorem counted_without_halt : ∃ calls last, Runs blank calls last ∧
    calls.map executesHalt = [false, false, false] ∧ blank.programs .compatible = 0 ∧
    last.programs .compatible = 2 := by
  have hResult : step.result blank = .error (.unrecognizedOpcode 0 0) := by decide +kernel
  have hFaults := faultsAt_iff.mpr ⟨blank.proceeds_zero, rfl, hResult⟩
  have hEnds := run?_of_faultsAt (Config.allows_of_unlimited rfl 1) hFaults
  have hStopped : (left (.error (.unrecognizedOpcode 0 0) (blank.after 1))).machine.halted = true :=
    by decide +kernel
  have hAgain := left_halted (run?_of_halted hStopped) (completes_of_halted hStopped)
  have hRuns := ((Runs.start.again hEnds).again (run?_of_halted hStopped)).again
    (run?_of_halted hAgain)
  have hFirst : blank.executesHalt = false := ((programCounted hEnds).failed rfl).1
  have hSecond := executesHalt_of_halted hStopped
  have hThird := executesHalt_of_halted hAgain
  refine ⟨_, _, hRuns, ?_, rfl, by decide +kernel⟩
  simp only [List.nil_append, List.cons_append, List.map_cons, List.map_nil, hFirst, hSecond,
    hThird]

end Ls8.Rig
