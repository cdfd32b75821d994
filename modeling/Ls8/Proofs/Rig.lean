import Ls8.Rig
import Ls8.Proofs.Registers

/-!
# Actions of a rig

* `onMachine_spares`, `onMachine_keeps`: an action of the machine does nothing to the host.
* `print_keeps`: printing does nothing to anything but the console.
* `Congruence`, `Both`: rigs with related machines and related hosts.
* `Alike`: among these, the rigs with machines that differ at most in their limit. No action that
  an instruction consists of can tell them apart (`Orderly`).
-/

namespace Ls8

/-- A fault of an instruction that was fetched and decoded. -/
def Fault.IsOfInstruction (fault : Fault) : Prop := fault.IsRegister ∨ fault = .consoleFull

namespace Rig

open Ls8.Action

variable {α : Type}

/-- The counts of executed instructions and programs. -/
def usage (rig : Rig) : Usage := rig.host.instruments.usage

/-- What a failed instruction leaves alone: everything but the console. -/
def core (rig : Rig) : Machine × Instruments := (rig.machine, rig.host.instruments)

/-- What no instruction touches by itself. -/
def bookkeeping (rig : Rig) : (UInt64 × Config) × Instruments :=
  (rig.machine.bookkeeping, rig.host.instruments)

/-! ## Actions of the machine -/

theorem onMachine_of_ok {act : Action Fault Machine α} {machine machine' : Machine} {a : α}
    (host : Host) (h : act machine = .ok a machine') :
    onMachine act ⟨machine, host⟩ = .ok a ⟨machine', host⟩ := by
  simp only [onMachine, h]

theorem onMachine_of_error {act : Action Fault Machine α} {machine machine' : Machine}
    {fault : Fault} (host : Host) (h : act machine = .error fault machine') :
    onMachine act ⟨machine, host⟩ = .error fault ⟨machine', host⟩ := by
  simp only [onMachine, h]

/-- An action of the machine succeeds in its own way, and the surroundings stay as they are. -/
theorem onMachine_ok {act : Action Fault Machine α} {rig rig' : Rig} {a : α}
    (h : onMachine act rig = .ok a rig') :
    act rig.machine = .ok a rig'.machine ∧ rig'.host = rig.host := by
  cases hx : act rig.machine with
  | ok a' machine =>
    rw [onMachine_of_ok rig.host hx] at h
    cases h
    exact ⟨rfl, rfl⟩
  | error fault machine =>
    rw [onMachine_of_error rig.host hx] at h
    cases h

/-- An action of the machine fails in its own way, and the surroundings stay as they are. -/
theorem onMachine_error {act : Action Fault Machine α} {rig rig' : Rig} {fault : Fault}
    (h : onMachine act rig = .error fault rig') :
    act rig.machine = .error fault rig'.machine ∧ rig'.host = rig.host := by
  cases hx : act rig.machine with
  | ok a machine =>
    rw [onMachine_of_ok rig.host hx] at h
    cases h
  | error fault' machine =>
    rw [onMachine_of_error rig.host hx] at h
    cases h
    exact ⟨rfl, rfl⟩

theorem onMachine_certain {act : Action Fault Machine α} (h : Certain act) :
    Certain (onMachine act) := by
  intro rig
  obtain ⟨a, machine, hx⟩ := h rig.machine
  exact ⟨a, _, onMachine_of_ok rig.host hx⟩

theorem onMachine_spares {act : Action Fault Machine α} (h : Spares id act) :
    Spares core (onMachine act) := by
  intro rig fault rig' he
  obtain ⟨hm, hh⟩ := onMachine_error he
  have hs : rig'.machine = rig.machine := h hm
  rw [core, core, hs, hh]

/-- What an action of the machine keeps there it keeps in the rig, together with the host. -/
theorem onMachine_shows {τ : Type} {view : Machine → τ} {act : Action Fault Machine α}
    (h : Keeps view act) : Keeps (fun rig : Rig => (view rig.machine, rig.host)) (onMachine act) := by
  intro rig
  cases hx : act rig.machine with
  | ok a machine =>
    rw [after_of_ok (onMachine_of_ok rig.host hx)]
    exact Prod.ext (h.of_ok hx) rfl
  | error fault machine =>
    rw [after_of_error (onMachine_of_error rig.host hx)]
    exact Prod.ext (h.of_error hx) rfl

theorem onMachine_views {τ : Type} {view : Machine → τ} {act : Action Fault Machine α}
    (h : Keeps view act) : Keeps (fun rig : Rig => view rig.machine) (onMachine act) :=
  Keeps.map (onMachine_shows h) Prod.fst

theorem onMachine_keeps {act : Action Fault Machine α} (h : Keeps id act) :
    Keeps core (onMachine act) :=
  Keeps.map (onMachine_shows h) fun shown => (shown.1, shown.2.instruments)

/-! ## Printing -/

/-- The rig with another console. -/
def withConsole (rig : Rig) (console : Console) : Rig :=
  { rig with host := { rig.host with console } }

theorem print_of_taken {rig : Rig} {value : UInt8} {console : Console}
    (h : rig.host.console.print value = (console, true)) :
    print value rig = .ok () (rig.withConsole console) := by
  simp only [print, h]
  rfl

theorem print_of_full {rig : Rig} {value : UInt8} {console : Console}
    (h : rig.host.console.print value = (console, false)) :
    print value rig = .error .consoleFull (rig.withConsole console) := by
  simp only [print, h]
  rfl

/-- Printing changes the console only, and a console that is full is its only failure. -/
theorem print_cases (value : UInt8) (rig : Rig) :
    ∃ console, print value rig = .ok () (rig.withConsole console) ∨
      print value rig = .error .consoleFull (rig.withConsole console) := by
  rcases h : rig.host.console.print value with ⟨console, _ | _⟩
  · exact ⟨console, Or.inr (print_of_full h)⟩
  · exact ⟨console, Or.inl (print_of_taken h)⟩

theorem print_keeps (value : UInt8) : Keeps core (print value) := by
  intro rig
  obtain ⟨console, h | h⟩ := print_cases value rig
  · rw [after_of_ok h]
    rfl
  · rw [after_of_error h]
    rfl

theorem print_views {τ : Type} {view : Machine → τ} (value : UInt8) :
    Keeps (fun rig : Rig => view rig.machine) (print value) :=
  Keeps.map (print_keeps value) fun core => view core.1

/-! ## What makes no difference to an instruction -/

/-- A relation that holds again after the same value was printed on both hosts, and after the
same was done to the instruments of both. -/
structure Congruence (H : Host → Host → Prop) : Prop where
  print {host host' : Host} (value : UInt8) (h : H host host') :
    (host'.console.print value).2 = (host.console.print value).2 ∧
      H { host with console := (host.console.print value).1 }
        { host' with console := (host'.console.print value).1 }
  record {host host' : Host} (f : Instruments → Instruments) (h : H host host') :
    H { host with instruments := f host.instruments }
      { host' with instruments := f host'.instruments }

theorem congruence_eq : Congruence Eq where
  print _ h := by rw [h]; exact ⟨rfl, rfl⟩
  record _ h := by rw [h]

/-- The machines are related in one way, and the hosts in another. -/
structure Both (M : Machine → Machine → Prop) (H : Host → Host → Prop) (rig rig' : Rig) :
    Prop where
  machine : M rig.machine rig'.machine
  host : H rig.host rig'.host

variable {M : Machine → Machine → Prop} {H : Host → Host → Prop}

theorem onMachine_both {act : Action Fault Machine α} (h : Respects M act) :
    Respects (Both M H) (onMachine act) := by
  rintro ⟨machine, host⟩ ⟨machine', host'⟩ ⟨hm, hHost⟩
  have hx := h hm
  simp only [onMachine]
  generalize act machine = r, act machine' = r' at hx ⊢
  cases hx with
  | ok related => exact .ok ⟨related, hHost⟩
  | error related => exact .error ⟨related, hHost⟩

theorem print_both (hH : Congruence H) (value : UInt8) : Respects (Both M H) (print value) := by
  rintro rig rig' ⟨hm, hHost⟩
  obtain ⟨hSame, hNext⟩ := hH.print value hHost
  rcases h : rig.host.console.print value with ⟨console, taken⟩
  rcases h' : rig'.host.console.print value with ⟨console', taken'⟩
  rw [h, h'] at hSame hNext
  cases taken <;> cases hSame
  · rw [print_of_full h, print_of_full h']
    exact .error ⟨hm, hNext⟩
  · rw [print_of_taken h, print_of_taken h']
    exact .ok ⟨hm, hNext⟩

theorem write_both (hH : Congruence H) (level : LogLevel) {message : Machine → String}
    (h : ∀ machine machine', M machine machine' → message machine' = message machine) :
    Respects (Both M H) (write level message) := by
  refine respects_modify fun rig rig' hR => ⟨hR.machine, ?_⟩
  simp only [h _ _ hR.machine]
  exact hH.record (fun instruments => { instruments with
    log := instruments.log.write level .machine fun _ => message rig.machine }) hR.host

theorem recordInstruction_both (hH : Congruence H) (opcode : Opcode) :
    Respects (Both M H) (recordInstruction opcode) := by
  refine respects_modify fun rig rig' hR => ⟨hR.machine, ?_⟩
  exact hH.record (fun instruments => { instruments with
    usage := instruments.usage.recordInstruction opcode }) hR.host

/-- The machines differ at most in the limit of their runs, and the hosts are related. -/
structure Alike (H : Host → Host → Prop) (rig rig' : Rig) : Prop where
  machine : rig.machine.Alike rig'.machine
  host : H rig.host rig'.host

theorem both_alike : Both Machine.Alike H = Alike H := by
  funext rig rig'
  exact propext ⟨fun h => ⟨h.machine, h.host⟩, fun h => ⟨h.machine, h.host⟩⟩

theorem onMachine_respects {act : Action Fault Machine α} (h : Respects Machine.Alike act) :
    Respects (Alike H) (onMachine act) :=
  both_alike ▸ onMachine_both h

theorem print_respects (hH : Congruence H) (value : UInt8) : Respects (Alike H) (print value) :=
  both_alike ▸ print_both hH value

theorem write_respects (hH : Congruence H) (level : LogLevel) {message : Machine → String}
    (h : ∀ machine maxSteps, message (machine.withLimit maxSteps) = message machine) :
    Respects (Alike H) (write level message) := by
  rw [← both_alike]
  apply write_both hH
  rintro machine _ ⟨maxSteps, rfl⟩
  exact h machine maxSteps

theorem recordInstruction_respects (hH : Congruence H) (opcode : Opcode) :
    Respects (Alike H) (recordInstruction opcode) :=
  both_alike ▸ recordInstruction_both hH opcode

/-- What all instructions have in common: they fail only if a register does not exist or the
console is full, leave the bookkeeping alone, and cannot tell rigs apart that are alike. -/
abbrev Orderly (act : Action Fault Rig α) : Prop :=
  ∀ ⦃H⦄, Congruence H → Within Fault.IsOfInstruction bookkeeping (Alike H) act

theorem onMachine_orderly {act : Action Fault Machine α} (h : Machine.Orderly act) :
    Orderly (onMachine act) := by
  intro H hH
  refine ⟨fun rig fault rig' he => ?_, ?_, onMachine_respects h.respects⟩
  · exact Or.inl (h.raises (onMachine_error he).1)
  · exact Keeps.map (onMachine_shows h.keeps) fun shown => (shown.1, shown.2.instruments)

theorem print_orderly (value : UInt8) : Orderly (print value) := by
  intro H hH
  refine ⟨fun rig fault rig' he => ?_, fun rig => ?_, print_respects hH value⟩
  · obtain ⟨console, h | h⟩ := print_cases value rig <;> rw [h] at he <;> cases he
    exact Or.inr rfl
  · obtain ⟨console, h | h⟩ := print_cases value rig
    · rw [after_of_ok h]
      rfl
    · rw [after_of_error h]
      rfl

end Rig

end Ls8
