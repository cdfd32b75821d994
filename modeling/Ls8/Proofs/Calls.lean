import Ls8.Proofs.Run

/-!
# Sequences of calls

A machine is used through calls: steps, runs and operations of the arithmetic unit, the first two
with a console to print on. The transcript of some calls is all that their caller gets to see.
It depends on the machine and the consoles, but not on what the instruments have counted before
(`transcript_instruments`).
-/

namespace Ls8

/-- What a machine can be called for. -/
inductive Request where
  | step
  | run
  | alu (op : AluOp) (a b : UInt8)

/-- What the caller sees after a call: its result, with the count of instructions if it was a run,
the console and the machine. -/
structure Reply where
  result : Except Fault (Option UInt64)
  console : Console
  machine : Machine

namespace Rig

open Ls8.Action

/-- What a call comes to. A run that does not end comes to nothing. -/
def answer (rig : Rig) : Request → Option (EStateM.Result Fault Rig (Option UInt64))
  | .step => some ((Machine.step >>= fun _ => pure none) rig)
  | .run =>
    match Machine.run? rig with
    | none => none
    | some (.ok executed rig) => some (.ok (some executed) rig)
    | some (.error fault rig) => some (.error fault rig)
  | .alu op a b => some ((onMachine (Machine.alu op a b) >>= fun _ => pure none) rig)

/-- The replies to some calls, each with the console that it comes with. No call is made after one
that does not end. -/
def transcript (machine : Machine) (instruments : Instruments) :
    List (Request × Console) → List Reply
  | [] => []
  | (request, console) :: calls =>
    match answer ⟨machine, ⟨console, instruments⟩⟩ request with
    | none => []
    | some (.ok executed ⟨machine, ⟨console, instruments⟩⟩) =>
      ⟨.ok executed, console, machine⟩ :: transcript machine instruments calls
    | some (.error fault ⟨machine, ⟨console, instruments⟩⟩) =>
      ⟨.error fault, console, machine⟩ :: transcript machine instruments calls

/-! ## The instruments play no part -/

/-- Hosts with the same console. -/
def SameConsole (host host' : Host) : Prop := host'.console = host.console

theorem sameConsole_congruence : Congruence SameConsole where
  print value h := by
    have hc : _ = _ := h
    rw [hc]
    exact ⟨rfl, rfl⟩
  record _ h := h

theorem onMachine_twin {α : Type} {H : Host → Host → Prop} (act : Action Fault Machine α) :
    Respects (Twin H) (onMachine act) := by
  rintro ⟨machine, host⟩ ⟨machine', host'⟩ ⟨hm, hHost⟩
  cases hm
  simp only [onMachine]
  cases act machine with
  | ok value machine => exact .ok ⟨rfl, hHost⟩
  | error fault machine => exact .error ⟨rfl, hHost⟩

theorem Twin.symm {rig rig' : Rig} (h : Twin SameConsole rig rig') : Twin SameConsole rig' rig :=
  ⟨h.machine.symm, h.host.symm⟩

theorem Twin.reply {rig rig' : Rig} (h : Twin SameConsole rig rig')
    (result : Except Fault (Option UInt64)) :
    Reply.mk result rig.host.console rig.machine =
      Reply.mk result rig'.host.console rig'.machine := by
  have hc : rig'.host.console = rig.host.console := h.host
  rw [hc, h.machine]

/-- Two outcomes of a call that its caller cannot tell apart. -/
abbrev SameAnswer {α : Type} : Option (EStateM.Result Fault Rig α) →
    Option (EStateM.Result Fault Rig α) → Prop :=
  Option.Rel (Matches (Twin SameConsole))

theorem run?_twin {rig rig' : Rig} (h : Twin SameConsole rig rig') :
    SameAnswer (Machine.run? rig) (Machine.run? rig') := by
  have hTwin := twin_bisimulation sameConsole_congruence
  cases hRun : Machine.run? rig with
  | none =>
    cases hRun' : Machine.run? rig' with
    | none => exact .none
    | some ended' =>
      obtain ⟨ended, he, -⟩ := hTwin.run?_of_same h.symm (by rw [h.machine]) hRun'
      rw [hRun] at he
      cases he
  | some ended =>
    obtain ⟨ended', he, hm⟩ := hTwin.run?_of_same h (by rw [h.machine]) hRun
    rw [he]
    exact .some hm

theorem answer_twin {rig rig' : Rig} (h : Twin SameConsole rig rig') (request : Request) :
    SameAnswer (rig.answer request) (rig'.answer request) := by
  cases request with
  | step =>
    have hStep := (twin_bisimulation sameConsole_congruence).step
    exact .some (respects_bind hStep (fun _ => respects_pure none) h)
  | run =>
    have hRun := run?_twin h
    simp only [answer]
    generalize Machine.run? rig = ended, Machine.run? rig' = ended' at hRun ⊢
    rcases hRun with ⟨⟨twin⟩ | ⟨twin⟩⟩ | _
    · exact .some (.ok twin)
    · exact .some (.error twin)
    · exact .none
  | alu op a b => exact .some (respects_bind (onMachine_twin _) (fun _ => respects_pure none) h)

/-- **Calls do not depend on the instruments.** -/
theorem transcript_instruments (machine : Machine) (instruments instruments' : Instruments)
    (calls : List (Request × Console)) :
    transcript machine instruments calls = transcript machine instruments' calls := by
  induction calls generalizing machine instruments instruments' with
  | nil => rfl
  | cons call calls ih =>
    obtain ⟨request, console⟩ := call
    have hTwin : Twin SameConsole ⟨machine, ⟨console, instruments⟩⟩
        ⟨machine, ⟨console, instruments'⟩⟩ := ⟨rfl, rfl⟩
    have hAnswer := answer_twin hTwin request
    simp only [transcript]
    generalize answer ⟨machine, ⟨console, instruments⟩⟩ request = first at hAnswer ⊢
    generalize answer ⟨machine, ⟨console, instruments'⟩⟩ request = second at hAnswer ⊢
    cases hAnswer with
    | none => rfl
    | some matched =>
      rcases matched with @⟨value, rig, rig', twin⟩ | @⟨fault, rig, rig', twin⟩
      · exact congrArg₂ List.cons (twin.reply _) (twin.machine ▸ ih _ _ _)
      · exact congrArg₂ List.cons (twin.reply _) (twin.machine ▸ ih _ _ _)

end Rig

end Ls8
