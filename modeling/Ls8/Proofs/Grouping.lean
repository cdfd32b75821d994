import Ls8.Proofs.History

/-!
# Steps taken in groups

A client may ask for the steps of a session in as many requests as it likes.

* `Progress.Accounts`: the counts that one request for steps comes with are in order.
  `execute_accounts`: they always are.
* `executeFrom_add`: as long as nothing fails, a request goes on where the one before has stopped.
* `Stuck`: a session that no step changes any more. `stuck_of_executeFrom`: a fault leaves the
  session like that, whether the fault comes again or not.
* `execute_add`: two requests in a row come to the same as one for all their steps.
-/

namespace Ls8.Session

open Ls8.Action Console

variable {session : Session} {instruments : Instruments} {executed first : Nat} {fault : Fault}

/-! ## The counts -/

/-- What is told about some steps agrees with what became of the session: as many were executed as
its machine has counted, no more than were asked for, and less only for a reason. -/
structure Progress.Accounts (progress : Progress) (count : Nat) (session : Session) : Prop where
  steps : Grown session.machine.steps progress.session.machine.steps progress.executed
  executed_le : progress.executed ≤ count
  short : progress.executed < count →
    progress.session.machine.halted = true ∨ progress.fault.isSome = true

/-- How many steps were made before only shows in the count. -/
theorem executeFrom_eq (executed count : Nat) (session : Session) (instruments : Instruments) :
    executeFrom executed count session instruments =
      { session.execute count instruments with
        executed := executed + (session.execute count instruments).executed } := by
  induction count generalizing executed session instruments with
  | zero => rfl
  | succ count ih =>
    rw [execute]
    cases hr : session.machine.halted with
    | true => simp only [executeFrom_of_halted hr, Nat.add_zero]
    | false =>
      cases hs : (session.step instruments).result with
      | ok _ =>
        rw [executeFrom_of_ok hr hs, executeFrom_of_ok hr hs, ih, ih (0 + 1)]
        simp only [Nat.zero_add, Nat.add_assoc]
      | error fault => rw [executeFrom_of_error hr hs, executeFrom_of_error hr hs, Nat.add_zero]

theorem execute_of_ok {count : Nat} (hr : session.machine.halted = false)
    (hs : (session.step instruments).result = .ok ()) :
    session.execute (count + 1) instruments =
      { (session.step instruments).session.execute count (session.step instruments).instruments with
        executed := 1 + ((session.step instruments).session.execute count
          (session.step instruments).instruments).executed } := by
  rw [execute, executeFrom_of_ok hr hs, executeFrom_eq]

theorem execute_accounts (count : Nat) (session : Session) (instruments : Instruments) :
    (session.execute count instruments).Accounts count session := by
  induction count generalizing session instruments with
  | zero => exact ⟨.refl _, le_rfl, fun h => (Nat.lt_irrefl 0 h).elim⟩
  | succ count ih =>
    cases hr : session.machine.halted with
    | true =>
      rw [execute, executeFrom_of_halted hr]
      exact ⟨.refl _, Nat.zero_le _, fun _ => Or.inl hr⟩
    | false =>
      cases hs : (session.step instruments).result with
      | ok _ =>
        have hCount := step_counts hr hs
        obtain ⟨hSteps, hLe, hShort⟩ := ih (session.step instruments).session
          (session.step instruments).instruments
        rw [execute_of_ok hr hs]
        refine ⟨?_, Nat.one_add _ ▸ Nat.succ_le_succ hLe, fun hLess => ?_⟩
        · exact (hCount ▸ grown_add session.machine.steps 1).trans hSteps
        · dsimp only at hLess
          exact hShort (by omega)
      | error fault =>
        rw [execute, executeFrom_of_error hr hs]
        have hSame := (step_counts_nothing hs).1
        exact ⟨hSame.symm ▸ .refl _, Nat.zero_le _, fun _ => Or.inr rfl⟩

/-! ## Going on -/

/-- Where nothing has failed, more steps go on from there. -/
theorem executeFrom_add (h : (executeFrom executed first session instruments).fault = none)
    (second : Nat) : executeFrom executed (first + second) session instruments =
      executeFrom (executeFrom executed first session instruments).executed second
        (executeFrom executed first session instruments).session
        (executeFrom executed first session instruments).instruments := by
  induction first generalizing executed session instruments with
  | zero => rw [Nat.zero_add, executeFrom]
  | succ first ih =>
    cases hr : session.machine.halted with
    | true =>
      simp only [executeFrom_of_halted hr]
    | false =>
      rw [Nat.succ_add]
      cases hs : (session.step instruments).result with
      | ok _ =>
        rw [executeFrom_of_ok hr hs] at h
        simp only [executeFrom_of_ok hr hs]
        exact ih h
      | error fault =>
        rw [executeFrom_of_error hr hs] at h
        cases h

/-- After a fault no more steps are made. -/
theorem executeFrom_add_of_fault
    (h : (executeFrom executed first session instruments).fault = some fault) (second : Nat) :
    executeFrom executed (first + second) session instruments =
      executeFrom executed first session instruments := by
  induction first generalizing executed session instruments with
  | zero => cases h
  | succ first ih =>
    cases hr : session.machine.halted with
    | true => simp only [executeFrom_of_halted hr]
    | false =>
      rw [Nat.succ_add]
      cases hs : (session.step instruments).result with
      | ok _ =>
        rw [executeFrom_of_ok hr hs] at h ⊢
        rw [executeFrom_of_ok hr hs]
        exact ih h
      | error fault => rw [executeFrom_of_error hr hs, executeFrom_of_error hr hs]

/-! ## Faults -/

/-- No step changes the session any more: its machine has halted, or every step fails. -/
def Stuck (session : Session) (fault : Fault) : Prop :=
  session.machine.halted = true ∨ ∀ instruments,
    (session.step instruments).result = .error fault ∧
      (session.step instruments).session = session

/-- A fault about a register or an address comes again, and an unrecognized opcode halts. -/
theorem stuck_of_step (h : (session.step instruments).result = .error fault) :
    Stuck (session.step instruments).session fault := by
  have hNothing := (step_counts_nothing h).2
  rw [step_result] at h
  have hStep := Rig.step_next_of_error h
  rw [step_session, hNothing]
  obtain ⟨-, -, ⟨-, hSame⟩ | ⟨_, -, -, -, hHalted, -⟩⟩ := Machine.step_error hStep
  · have hMachine : session.machine.alone.next.machine = session.machine := hSame
    refine Or.inr fun instruments' => ?_
    rw [step_result, step_session, hMachine, hNothing]
    refine ⟨h, ?_⟩
    dsimp only
    rw [hMachine]
    exact congrArg _ (trim_trim _ _)
  · exact Or.inl (by rw [hHalted])

theorem stuck_of_executeFrom
    (h : (executeFrom executed first session instruments).fault = some fault) :
    Stuck (executeFrom executed first session instruments).session fault := by
  obtain ⟨last, instruments', -, hFails, hSame⟩ := (executeFrom_keeps (P := fun _ => True)
    (fun _ _ _ => trivial) trivial executed first instruments).2 fault h
  rw [hSame]
  exact stuck_of_step hFails

theorem Stuck.execute (h : Stuck session fault) (count : Nat) (instruments : Instruments) :
    (session.execute count instruments).executed = 0 ∧
      (session.execute count instruments).session = session ∧
      ((session.execute count instruments).fault = none ∨
        (session.execute count instruments).fault = some fault) := by
  rw [Session.execute]
  cases count with
  | zero => exact ⟨rfl, rfl, Or.inl rfl⟩
  | succ count =>
    cases hr : session.machine.halted with
    | true =>
      rw [executeFrom_of_halted hr]
      exact ⟨rfl, rfl, Or.inl rfl⟩
    | false =>
      have hStep := h.resolve_left (by simp [hr])
      obtain ⟨hResult, hSession⟩ := hStep instruments
      rw [executeFrom_of_error hr hResult]
      exact ⟨rfl, hSession, Or.inr rfl⟩

/-! ## Two requests -/

/-- What two requests in a row and one for all their steps have in common. -/
structure Progress.Joins (first second whole : Progress) : Prop where
  session : whole.session = second.session
  executed : whole.executed = first.executed + second.executed
  fault : whole.fault = first.fault.or second.fault

theorem execute_joins (session : Session) (first second : Nat) (instruments : Instruments) :
    Progress.Joins (session.execute first instruments)
      ((session.execute first instruments).session.execute second
        (session.execute first instruments).instruments)
      (session.execute (first + second) instruments) := by
  cases hf : (session.execute first instruments).fault with
  | none =>
    have hWhole := executeFrom_add hf second
    rw [executeFrom_eq (executeFrom 0 first session instruments).executed] at hWhole
    rw [← execute, ← execute] at hWhole
    rw [hWhole]
    exact ⟨rfl, rfl, by rw [hf, Option.none_or]⟩
  | some fault =>
    have hStuck := stuck_of_executeFrom hf
    obtain ⟨hExecuted, hSession, -⟩ := hStuck.execute second
      (session.execute first instruments).instruments
    have hWhole : session.execute (first + second) instruments =
        session.execute first instruments := executeFrom_add_of_fault hf second
    rw [hWhole]
    exact ⟨hSession.symm, by rw [← execute] at hExecuted; omega, by rw [hf, Option.some_or]⟩

/-- **Steps may be grouped at will.** Two requests for steps leave the same session as one for all
of them, output included; they execute as many instructions together, and the one meets the fault
of the first of them that meets one. In each request as many instructions are executed as the
machine counts, at most as many as were asked for, and less only if the machine has halted or a
fault is reported. What is counted and logged beside the session makes no difference. -/
theorem execute_add (session : Session) (first second : Nat)
    (instruments instruments' instruments'' : Instruments) :
    Progress.Joins (session.execute first instruments)
        ((session.execute first instruments).session.execute second instruments')
        (session.execute (first + second) instruments'') ∧
      (session.execute first instruments).Accounts first session ∧
      ((session.execute first instruments).session.execute second instruments').Accounts second
        (session.execute first instruments).session ∧
      (session.execute (first + second) instruments'').Accounts (first + second) session := by
  refine ⟨?_, execute_accounts .., execute_accounts .., execute_accounts ..⟩
  obtain ⟨hSession, hExecuted, hFault⟩ := execute_joins session first second instruments
  obtain ⟨hExecuted', hFault', hSession'⟩ :=
    execute_instruments (session.execute first instruments).session second
      (session.execute first instruments).instruments instruments'
  obtain ⟨hExecuted'', hFault'', hSession''⟩ :=
    execute_instruments session (first + second) instruments instruments''
  constructor
  · rw [hSession'', hSession, hSession']
  · rw [hExecuted'', hExecuted, hExecuted']
  · rw [hFault'', hFault, hFault']

end Ls8.Session
