import Ls8.Proofs.Grouping
import Ls8.Proofs.Modes
import Ls8.Proofs.Resumption

/-!
# Steps that are attempted

Runs and requests for steps attempt one step after another, and some of these execute an
instruction.

* `Rig.succeeds`, `Rig.executed?`: whether the next step executes an instruction, and which one.
* `Rig.attempts?`, `Session.attempts`: the rigs at which a run and a request for steps attempt a
  step.
* `Usage.Gains`: the counts have grown by some instructions. `Rig.Counted`: so has the counter of
  the machine, by as many.
* `counted_next`: a step is counted if it has executed an instruction, and by nothing else.
  `counted_run`, `counted_execute`: hence runs and requests for steps are counted by those of their
  attempts that have.
-/

namespace Ls8

/-! ## Counts that grow -/

namespace Usage

/-- The counts have grown by some executed instructions. Timings that were in step with the
instructions still are. -/
structure Gains (before after : Usage) (opcodes : List Opcode) : Prop where
  steps : after.steps = before.steps + opcodes.length
  total : after.instructions.total = before.instructions.total + opcodes.length
  count (opcode : Opcode) :
    after.instructions.count opcode = before.instructions.count opcode + opcodes.count opcode
  timings : before.timings = before.instructions → after.timings = after.instructions

theorem Gains.refl (usage : Usage) : Gains usage usage [] := ⟨rfl, rfl, fun _ => rfl, id⟩

theorem Gains.trans {first second third : Usage} {opcodes more : List Opcode}
    (h : Gains first second opcodes) (h' : Gains second third more) :
    Gains first third (opcodes ++ more) where
  steps := by rw [h'.steps, h.steps, List.length_append, Nat.add_assoc]
  total := by rw [h'.total, h.total, List.length_append, Nat.add_assoc]
  count opcode := by rw [h'.count, h.count, List.count_append, Nat.add_assoc]
  timings hBefore := h'.timings (h.timings hBefore)

theorem gains_recordInstruction (usage : Usage) (opcode : Opcode) :
    Gains usage (usage.recordInstruction opcode) [opcode] where
  steps := rfl
  total := Counts.total_increment usage.instructions opcode
  count other := by
    rw [List.count_singleton]
    exact (Counts.count_increment usage.instructions opcode other).trans (by grind)
  timings hBefore := congrArg (·.increment opcode) hBefore

theorem gains_recordProgram (usage : Usage) (mode : AluMode) :
    Gains usage (usage.recordProgram mode) [] := ⟨rfl, rfl, fun _ => rfl, id⟩

end Usage

namespace Rig

open Ls8.Action Machine

/-! ## Attempts -/

/-- The next step executes an instruction: the machine is running, and the step does not fail. -/
def succeeds (rig : Rig) : Bool := !rig.machine.halted && (step.result rig).isOk

/-- The instruction that the next step executes. -/
def executed? (rig : Rig) : Option Opcode :=
  if rig.succeeds then rig.machine.attempted? else none

/-- The rigs that the first `n` steps begin with. -/
def departures (rig : Rig) : (n : Nat) → List Rig
  | 0 => []
  | n + 1 => rig.departures n ++ [rig.after n]

/-- The rigs at which a run makes a step, where `start` is what the counter of steps showed when it
began. -/
def attemptsFrom (rig : Rig) (start : UInt64) : Option (List Rig) :=
  if rig.machine.halted then some []
  else
    match rig.machine.config.exhausted? (rig.machine.steps - start) with
    | some _ => some []
    | none =>
      match step rig with
      | .ok () next => do
        let rest ← next |>.attemptsFrom start
        return rig :: rest
      | .error _ _ => some [rig]
partial_fixpoint

/-- The rigs at which a run makes a step, if the run comes to an end. -/
def attempts? (rig : Rig) : Option (List Rig) := rig.attemptsFrom rig.machine.steps

/-- The instructions that are executed by some attempts at a step. -/
def executed (attempts : List Rig) : List Opcode := attempts.filterMap executed?

variable {rig : Rig}

theorem executed?_of_halted (h : rig.machine.halted = true) : rig.executed? = none := by
  simp [executed?, succeeds, h]

theorem executed?_of_error {fault : Fault} (h : step.result rig = .error fault) :
    rig.executed? = none := by
  simp [executed?, succeeds, h, Except.isOk, Except.toBool]

/-- A step that succeeds has carried out what it attempted, and then counted it. -/
theorem exists_executed? {rig' : Rig} (hr : rig.machine.halted = false)
    (h : step rig = .ok () rig') :
    ∃ fetched opcode rig₁, rig.machine.fetch = .ok fetched ∧ rig.executed? = some opcode ∧
      execute opcode fetched.a fetched.b (traced rig) = .ok () rig₁ ∧
      rig' = counted opcode rig₁ := by
  have hSucceeds : rig.succeeds = true := by
    simp [succeeds, result, hr, h, Except.isOk, Except.toBool]
  obtain ⟨fetched, opcode, rig₁, hf, hd, hExecute, hCounted⟩ := exists_executed hr h
  refine ⟨fetched, opcode, rig₁, hf, ?_, hExecute, hCounted⟩
  rw [executed?, if_pos hSucceeds, attempted?_of_fetched hr hf, hd]

theorem executed?_of_ok {rig' : Rig} (hr : rig.machine.halted = false)
    (h : step rig = .ok () rig') :
    ∃ opcode, rig.executed? = some opcode ∧ rig'.usage = rig.usage.recordInstruction opcode := by
  obtain ⟨fetched, opcode, rig₁, -, hExecuted, hExecute, rfl⟩ := exists_executed? hr h
  have hKept := (execute_orderly opcode fetched.a fetched.b congruence_eq).keeps.of_ok hExecute
  have hUsage : rig₁.usage = rig.usage := congrArg (fun kept => kept.2.usage) hKept
  exact ⟨opcode, hExecuted, congrArg (·.recordInstruction opcode) hUsage⟩

theorem isSome_executed? (rig : Rig) : rig.executed?.isSome = rig.succeeds := by
  cases hr : rig.machine.halted with
  | true => simp [executed?, succeeds, hr]
  | false =>
    cases hs : step rig with
    | ok _ rig' =>
      obtain ⟨opcode, hExecuted, -⟩ := executed?_of_ok hr hs
      rw [hExecuted]
      simp [succeeds, result, hr, hs, Except.isOk, Except.toBool]
    | error fault rig' =>
      simp [executed?, succeeds, result, hs, Except.isOk, Except.toBool]

/-- As many instructions are executed as attempts succeed. -/
theorem length_executed (attempts : List Rig) :
    (executed attempts).length = attempts.countP succeeds := by
  rw [executed, List.length_filterMap_eq_countP]
  simp only [isSome_executed?]

theorem executed_append (attempts more : List Rig) :
    executed (attempts ++ more) = executed attempts ++ executed more :=
  List.filterMap_append

theorem executed_singleton (rig : Rig) : executed [rig] = rig.executed?.toList := by
  rw [executed, List.filterMap_cons]
  cases rig.executed? <;> rfl

/-! ## Steps are counted -/

/-- The counters of a rig have come to those of another one by some executed instructions, and no
run was counted. -/
structure Counted (rig rig' : Rig) (opcodes : List Opcode) : Prop where
  gains : rig.usage.Gains rig'.usage opcodes
  programs : rig'.usage.programs = rig.usage.programs
  steps : Grown rig.machine.steps rig'.machine.steps opcodes.length

theorem Counted.refl (rig : Rig) : Counted rig rig [] := ⟨.refl _, rfl, .refl _⟩

theorem Counted.trans {first second third : Rig} {opcodes more : List Opcode}
    (h : Counted first second opcodes) (h' : Counted second third more) :
    Counted first third (opcodes ++ more) where
  gains := h.gains.trans h'.gains
  programs := h'.programs.trans h.programs
  steps := List.length_append ▸ h.steps.trans h'.steps

/-- **A step is counted exactly if it has executed an instruction.** -/
theorem counted_next (rig : Rig) : Counted rig rig.next rig.executed?.toList := by
  cases hr : rig.machine.halted with
  | true =>
    rw [executed?_of_halted hr, next_of_ok (step_of_halted hr)]
    exact .refl rig
  | false =>
    cases hs : step rig with
    | ok _ rig' =>
      obtain ⟨opcode, hExecuted, hUsage⟩ := executed?_of_ok hr hs
      rw [hExecuted, next_of_ok hs]
      refine ⟨?_, ?_, (step_ok hr hs).1 ▸ grown_add rig.machine.steps 1⟩
      · rw [hUsage]
        exact Usage.gains_recordInstruction rig.usage opcode
      · rw [hUsage]
        rfl
    | error fault rig' =>
      have hResult := result_of_error hs
      have hUsage : rig.next.usage = rig.usage := by
        rw [next, after_of_error hs]
        exact (step_error hs).2.1
      rw [executed?_of_error hResult]
      refine ⟨?_, ?_, error_steps hResult ▸ .refl _⟩
      · rw [hUsage]
        exact .refl _
      · rw [hUsage]

theorem length_departures (rig : Rig) (n : Nat) : (rig.departures n).length = n := by
  induction n with
  | zero => rfl
  | succ n ih => rw [departures, List.length_append, List.length_singleton, ih]

theorem counted_after (rig : Rig) (n : Nat) :
    Counted rig (rig.after n) (executed (rig.departures n)) := by
  induction n with
  | zero => exact .refl rig
  | succ n ih =>
    rw [departures, executed_append, executed_singleton, after_succ']
    exact ih.trans (counted_next _)

/-! ## Runs are counted -/

theorem attemptsFrom_of_halted (h : rig.machine.halted = true) (start : UInt64) :
    rig.attemptsFrom start = some [] := by
  rw [attemptsFrom, if_pos h]

theorem attemptsFrom_of_exhausted {start limit : UInt64} (h : rig.machine.halted = false)
    (hl : rig.machine.config.exhausted? (rig.machine.steps - start) = some limit) :
    rig.attemptsFrom start = some [] := by
  rw [attemptsFrom, if_neg (by simp [h]), hl]

theorem attemptsFrom_of_ok {rig' : Rig} {start : UInt64} (h : rig.machine.halted = false)
    (hl : rig.machine.config.exhausted? (rig.machine.steps - start) = none)
    (hs : step rig = .ok () rig') :
    rig.attemptsFrom start = (rig'.attemptsFrom start).map (rig :: ·) := by
  rw [attemptsFrom, if_neg (by simp [h]), hl]
  simp only [hs]
  cases rig'.attemptsFrom start <;> rfl

theorem attemptsFrom_of_error {rig' : Rig} {start : UInt64} {fault : Fault}
    (h : rig.machine.halted = false)
    (hl : rig.machine.config.exhausted? (rig.machine.steps - start) = none)
    (hs : step rig = .error fault rig') : rig.attemptsFrom start = some [rig] := by
  rw [attemptsFrom, if_neg (by simp [h]), hl]
  simp only [hs]

/-- A run attempts its steps one after another, as long as they succeed and the limit allows. -/
theorem attemptsFrom_of_proceeds {n : Nat} (h : rig.Proceeds n)
    (ha : rig.machine.config.Allows n) : rig.attemptsFrom rig.machine.steps =
      ((rig.after n).attemptsFrom rig.machine.steps).map (rig.departures n ++ ·) := by
  induction n with
  | zero =>
    show rig.attemptsFrom rig.machine.steps = (rig.attemptsFrom rig.machine.steps).map ([] ++ ·)
    cases rig.attemptsFrom rig.machine.steps <;> rfl
  | succ n ih =>
    have hp := h.mono (Nat.le_succ n)
    obtain ⟨hr, hs⟩ := h n (Nat.lt_succ_self n)
    have hl := hp.exhausted?.trans (Config.exhausted?_of_allows ha)
    rw [ih hp (ha.mono (Nat.le_succ n)), attemptsFrom_of_ok hr hl hs, Option.map_map]
    refine congrArg (Option.map · _) (funext fun rest => ?_)
    simp [departures]

theorem attempts?_of_haltsAt {n : Nat} (ha : rig.machine.config.Allows n) (h : rig.HaltsAt n) :
    rig.attempts? = some (rig.departures n) := by
  obtain ⟨hp, hh⟩ := haltsAt_iff.mp h
  rw [attempts?, attemptsFrom_of_proceeds hp ha, attemptsFrom_of_halted hh, Option.map_some,
    List.append_nil]

/-- The step that fails is attempted, too. -/
theorem attempts?_of_faultsAt {k : Nat} {fault : Fault} (ha : rig.machine.config.Allows (k + 1))
    (h : rig.FaultsAt k fault) : rig.attempts? = some (rig.departures (k + 1)) := by
  obtain ⟨hp, hr, hf⟩ := faultsAt_iff.mp h
  have hl := hp.exhausted?.trans (Config.exhausted?_of_allows ha)
  rw [attempts?, attemptsFrom_of_proceeds hp (ha.mono (Nat.le_succ k)),
    attemptsFrom_of_error hr hl (step_next_of_error hf), Option.map_some, departures]

theorem attempts?_of_exhausted {limit : UInt64} (hl : rig.machine.config.maxSteps = some limit)
    (hp : rig.Proceeds limit.toNat) (hr : (rig.after limit.toNat).machine.halted = false) :
    rig.attempts? = some (rig.departures limit.toNat) := by
  have ha := (Config.allows_iff hl).mpr le_rfl
  have hx := hp.exhausted?.trans (Config.exhausted?_of_limit hl)
  rw [attempts?, attemptsFrom_of_proceeds hp ha, attemptsFrom_of_exhausted hr hx,
    Option.map_some, List.append_nil]

/-- What a run attempts are steps from its beginning, as many as the limit allows at most, and it
ends where they lead. -/
theorem attempts?_of_run? {ended : EStateM.Result Fault Rig UInt64} (ends : run? rig = some ended) :
    ∃ n, rig.attempts? = some (rig.departures n) ∧ rig.machine.config.Allows n ∧
      (ended = .ok (.ofNat n) (rig.after n).recordProgram ∨
        ∃ fault, ended = .error fault (rig.after n)) := by
  cases run?_eq_some_iff.mp ends with
  | @halted n allowed halts =>
    exact ⟨n, attempts?_of_haltsAt allowed halts, allowed, Or.inl rfl⟩
  | @faulted k fault allowed faults =>
    exact ⟨k + 1, attempts?_of_faultsAt allowed faults, allowed, Or.inr ⟨fault, rfl⟩⟩
  | @exhausted limit limited proceeds running =>
    have allowed := (Config.allows_iff limited).mpr le_rfl
    exact ⟨_, attempts?_of_exhausted limited proceeds running, allowed, Or.inr ⟨_, rfl⟩⟩

/-- What a run that has ended has added to the counts. -/
structure RunCounted (rig : Rig) (ended : EStateM.Result Fault Rig UInt64)
    (opcodes : List Opcode) : Prop where
  gains : rig.usage.Gains (left ended).usage opcodes
  completed {count : UInt64} {rig' : Rig} (ok : ended = .ok count rig') :
    rig'.usage.programs = rig.usage.programs.increment rig.machine.config.aluMode
  failed {fault : Fault} {rig' : Rig} (error : ended = .error fault rig') :
    rig'.usage.programs = rig.usage.programs
  steps : Grown rig.machine.steps (left ended).machine.steps opcodes.length
  allowed : rig.machine.config.Allows opcodes.length

/-- **A run is counted by the steps that it attempts**, and as a program if it comes to the end of
one. -/
theorem counted_run {ended : EStateM.Result Fault Rig UInt64} (ends : run? rig = some ended) :
    ∃ attempts, rig.attempts? = some attempts ∧ RunCounted rig ended (executed attempts) := by
  obtain ⟨n, hAttempts, hAllows, hEnds⟩ := attempts?_of_run? ends
  have hAllowed : rig.machine.config.Allows (executed (rig.departures n)).length := by
    refine hAllows.mono ((List.length_filterMap_le ..).trans_eq ?_)
    exact length_departures rig n
  rcases hEnds with rfl | ⟨fault, rfl⟩
  · obtain ⟨hGains, hPrograms, hSteps⟩ := counted_after rig n
    have hRecord := Usage.gains_recordProgram (rig.after n).usage
      (rig.after n).machine.config.aluMode
    have hBoth := hGains.trans hRecord
    rw [List.append_nil] at hBoth
    refine ⟨_, hAttempts, hBoth, ?_, nofun, hSteps, hAllowed⟩
    rintro _ _ ⟨⟩
    show (rig.after n).usage.programs.increment (rig.after n).machine.config.aluMode = _
    rw [hPrograms, after_config]
  · obtain ⟨hGains, hPrograms, hSteps⟩ := counted_after rig n
    refine ⟨_, hAttempts, hGains, nofun, ?_, hSteps, hAllowed⟩
    rintro _ _ ⟨⟩
    exact hPrograms

end Rig

namespace Session

open Ls8.Action Rig

/-! ## Requests for steps are counted -/

/-- The rigs at which a request for some steps attempts one. -/
def attempts (count : Nat) (session : Session) (instruments : Instruments) : List Rig :=
  match count with
  | 0 => []
  | count + 1 =>
    if session.machine.halted then []
    else
      session.rig instruments :: match session.step instruments with
        | ⟨.ok (), session, instruments⟩ => attempts count session instruments
        | ⟨.error _, _, _⟩ => []

variable {session : Session} {instruments : Instruments} {count : Nat}

theorem attempts_of_halted (h : session.machine.halted = true) (count : Nat)
    (instruments : Instruments) : session.attempts count instruments = [] := by
  cases count with
  | zero => rfl
  | succ count => rw [attempts, if_pos h]

theorem attempts_of_ok (h : session.machine.halted = false)
    (hs : (session.step instruments).result = .ok ()) :
    session.attempts (count + 1) instruments = session.rig instruments ::
      (session.step instruments).session.attempts count (session.step instruments).instruments := by
  rw [attempts, if_neg (by simp [h])]
  generalize session.step instruments = outcome at hs ⊢
  obtain ⟨result, after, counted⟩ := outcome
  cases hs
  rfl

theorem attempts_of_error {fault : Fault} (h : session.machine.halted = false)
    (hs : (session.step instruments).result = .error fault) :
    session.attempts (count + 1) instruments = [session.rig instruments] := by
  rw [attempts, if_neg (by simp [h])]
  generalize session.step instruments = outcome at hs ⊢
  obtain ⟨result, after, counted⟩ := outcome
  cases hs
  rfl

theorem perform_instruments {α : Type} (session : Session) (instruments : Instruments)
    (act : Action Fault Rig α) : (session.perform instruments act).instruments =
      (act.after (session.rig instruments)).host.instruments := by
  rw [perform_eq]
  rfl

/-- What is trimmed of the output is not counted. -/
theorem counted_step (session : Session) (instruments : Instruments) :
    Counted (session.rig instruments)
      ((session.step instruments).session.rig (session.step instruments).instruments)
      (executed [session.rig instruments]) := by
  have hMachine := perform_machine session instruments Machine.step
  have hInstruments := perform_instruments session instruments Machine.step
  obtain ⟨hGains, hPrograms, hSteps⟩ := counted_next (session.rig instruments)
  rw [executed_singleton, Session.step]
  generalize session.perform instruments Machine.step = outcome at hMachine hInstruments ⊢
  refine ⟨?_, ?_, ?_⟩
  · show Usage.Gains _ outcome.instruments.usage _
    rw [hInstruments]
    exact hGains
  · show outcome.instruments.usage.programs = _
    rw [hInstruments]
    exact hPrograms
  · show Grown _ outcome.session.machine.steps _
    rw [hMachine]
    exact hSteps

/-- **A request for steps is counted by the steps that it attempts.** -/
theorem counted_execute (count : Nat) (session : Session) (instruments : Instruments) :
    Counted (session.rig instruments)
      ((session.execute count instruments).session.rig
        (session.execute count instruments).instruments)
      (executed (session.attempts count instruments)) := by
  induction count generalizing session instruments with
  | zero => exact .refl _
  | succ count ih =>
    cases hr : session.machine.halted with
    | true =>
      rw [execute, executeFrom_of_halted hr, attempts_of_halted hr]
      exact .refl _
    | false =>
      have hStep := counted_step session instruments
      cases hs : (session.step instruments).result with
      | ok _ =>
        rw [execute_of_ok hr hs, attempts_of_ok hr hs, ← List.singleton_append, executed_append]
        exact hStep.trans (ih _ _)
      | error fault =>
        rw [execute, executeFrom_of_error hr hs, attempts_of_error hr hs]
        exact hStep

/-- The number that is reported is that of the attempts that succeed. -/
theorem execute_executed (count : Nat) (session : Session) (instruments : Instruments) :
    (session.execute count instruments).executed =
      (session.attempts count instruments).countP succeeds := by
  induction count generalizing session instruments with
  | zero => rfl
  | succ count ih =>
    cases hr : session.machine.halted with
    | true => rw [execute, executeFrom_of_halted hr, attempts_of_halted hr, List.countP_nil]
    | false =>
      have hRunning : (session.rig instruments).machine.halted = false := hr
      have hResult := perform_result session instruments Machine.step
      cases hs : (session.step instruments).result with
      | ok _ =>
        have hSucceeds : (session.rig instruments).succeeds = true := by
          rw [Rig.succeeds, hRunning, ← hResult, ← Session.step, hs]
          rfl
        rw [execute_of_ok hr hs, attempts_of_ok hr hs, List.countP_cons_of_pos hSucceeds, ← ih,
          Nat.add_comm]
      | error fault =>
        have hFails : ¬(session.rig instruments).succeeds = true := by
          rw [Rig.succeeds, hRunning, ← hResult, ← Session.step, hs]
          exact Bool.false_ne_true
        rw [execute, executeFrom_of_error hr hs, attempts_of_error hr hs,
          List.countP_cons_of_neg hFails, List.countP_nil]

end Session

end Ls8
