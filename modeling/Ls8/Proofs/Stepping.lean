import Ls8.Proofs.Session

/-!
# What decides the course of a session

The machine of a session decides what its steps come to. The output is written along the way, and
the instruments only count.

* `step_result`, `step_session`: a step of a session in terms of its machine, with nothing around
  it.
* `executeFrom_respects`, `executeFrom_keeps`: what steps keep, several of them keep.
* `execute_of_machine`: sessions with the same machine take the same course, whatever they have
  printed before. `execute_instruments`: the instruments make no difference to the session.
-/

namespace Ls8

/-- A machine with nothing around it but a console that takes everything. -/
def Machine.alone (machine : Machine) : Rig := ⟨machine, {}⟩

namespace Session

open Ls8.Action Console
open Rig (Twin twin_bisimulation)

/-! ## One step -/

theorem alone_twin (session : Session) (instruments : Instruments) :
    Twin BothEndless session.machine.alone (session.rig instruments) := ⟨rfl, rfl, rfl⟩

theorem perform_session {α : Type} (session : Session) (instruments : Instruments)
    (act : Action Fault Rig α) : (session.perform instruments act).session =
      ⟨(act.after (session.rig instruments)).machine, session.createdAt,
        trim consoleLimit (act.after (session.rig instruments)).console.written⟩ := by
  rw [perform_eq]
  rfl

theorem step_result (session : Session) (instruments : Instruments) :
    (session.step instruments).result = Machine.step.result session.machine.alone := by
  have hStep := (twin_bisimulation bothEndless_congruence).step
  rw [Session.step, perform_result]
  exact hStep.result_eq (alone_twin session instruments)

/-- **The machine decides what a step does to a session**: what becomes of the machine, and what is
added to the output. -/
theorem step_session (session : Session) (instruments : Instruments) :
    (session.step instruments).session = ⟨session.machine.alone.next.machine, session.createdAt,
      trim consoleLimit
        (append session.console (session.machine.printed?.toList.flatMap line))⟩ := by
  have hStep := (twin_bisimulation bothEndless_congruence).step
  have hMachine : (session.rig instruments).next.machine = session.machine.alone.next.machine :=
    (hStep.after (alone_twin session instruments)).machine
  have hConsole : (session.rig instruments).next.console.written =
      append session.console (session.machine.printed?.toList.flatMap line) := by
    rw [next_console rfl]
    rfl
  rw [Session.step, perform_session, ← Rig.next, hMachine, hConsole]

/-! ## Several steps -/

/-- What relates two sessions with the same machine, and still does so after a step of both, relates
them after any number of steps. -/
theorem executeFrom_respects {R : Session → Session → Prop}
    (hMachine : ∀ ⦃session session'⦄, R session session' → session'.machine = session.machine)
    (hStep : ∀ ⦃session session'⦄ (instruments instruments' : Instruments), R session session' →
      R (session.step instruments).session (session'.step instruments').session)
    {session session' : Session} (h : R session session') (executed count : Nat)
    (instruments instruments' : Instruments) :
    (executeFrom executed count session' instruments').executed =
        (executeFrom executed count session instruments).executed ∧
      (executeFrom executed count session' instruments').fault =
        (executeFrom executed count session instruments).fault ∧
      R (executeFrom executed count session instruments).session
        (executeFrom executed count session' instruments').session := by
  induction count generalizing executed session session' instruments instruments' with
  | zero => exact ⟨rfl, rfl, h⟩
  | succ count ih =>
    have hSame := hMachine h
    cases hr : session.machine.halted with
    | true =>
      rw [executeFrom_of_halted hr, executeFrom_of_halted (hSame ▸ hr)]
      exact ⟨rfl, rfl, h⟩
    | false =>
      have hResult : (session'.step instruments').result = (session.step instruments).result := by
        rw [step_result, step_result, hSame]
      have hNext := hStep instruments instruments' h
      cases hs : (session.step instruments).result with
      | ok _ =>
        rw [executeFrom_of_ok hr hs, executeFrom_of_ok (hSame ▸ hr) (hResult.trans hs)]
        exact ih hNext (executed + 1) _ _
      | error fault =>
        rw [executeFrom_of_error hr hs, executeFrom_of_error (hSame ▸ hr) (hResult.trans hs)]
        exact ⟨rfl, rfl, hNext⟩

/-- What a step keeps, several of them keep. If a fault ends them, the last one has met it. -/
theorem executeFrom_keeps {P : Session → Prop}
    (hStep : ∀ session instruments, P session → P (session.step instruments).session)
    {session : Session} (h : P session) (executed count : Nat) (instruments : Instruments) :
    P (executeFrom executed count session instruments).session ∧
      ∀ fault, (executeFrom executed count session instruments).fault = some fault →
        ∃ last instruments', P last ∧ (last.step instruments').result = .error fault ∧
          (executeFrom executed count session instruments).session =
            (last.step instruments').session := by
  induction count generalizing executed session instruments with
  | zero => exact ⟨h, nofun⟩
  | succ count ih =>
    cases hr : session.machine.halted with
    | true =>
      rw [executeFrom_of_halted hr]
      exact ⟨h, nofun⟩
    | false =>
      have hNext := hStep session instruments h
      cases hs : (session.step instruments).result with
      | ok _ =>
        rw [executeFrom_of_ok hr hs]
        exact ih hNext (executed + 1) _
      | error fault =>
        rw [executeFrom_of_error hr hs]
        refine ⟨hNext, ?_⟩
        rintro _ ⟨⟩
        exact ⟨session, instruments, h, hs, rfl⟩

/-- **Sessions with the same machine take the same course**, whatever they have printed before. -/
theorem execute_of_machine {session session' : Session}
    (h : session'.machine = session.machine) (count : Nat)
    (instruments instruments' : Instruments) :
    (session'.execute count instruments').executed = (session.execute count instruments).executed ∧
      (session'.execute count instruments').fault = (session.execute count instruments).fault ∧
      (session'.execute count instruments').session.machine =
        (session.execute count instruments).session.machine := by
  refine executeFrom_respects (R := fun session session' => session'.machine = session.machine)
    (fun _ _ h => h) (fun _ _ instruments instruments' h => ?_) h 0 count instruments instruments'
  rw [step_session, step_session, h]

theorem execute_instruments (session : Session) (count : Nat)
    (instruments instruments' : Instruments) :
    (session.execute count instruments').executed = (session.execute count instruments).executed ∧
      (session.execute count instruments').fault = (session.execute count instruments).fault ∧
      (session.execute count instruments').session =
        (session.execute count instruments).session := by
  have hSame : session = session := rfl
  obtain ⟨hExecuted, hFault, hSession⟩ := executeFrom_respects (R := Eq)
    (fun _ _ h => h ▸ rfl) (fun _ _ _ _ h => by rw [step_session, step_session, h]) hSame
    0 count instruments instruments'
  exact ⟨hExecuted, hFault, hSession.symm⟩

end Session

end Ls8
