import Ls8.Proofs.Run

/-!
# Where a program goes

The program counter of a machine, from one instruction to the next.

* `fetch_address`: a fetch that fails names the first of its three addresses that is past the last
  cell. `fetch_pc`: one that succeeds begins at least two cells before that.
* `Leads`: where an instruction leads, with the lengths of all instructions.
* `Executes`: what an instruction does to the control state. `step_executes`: so does every step
  that executes one.
* `step_address`: only a fetch fails for want of a cell.
-/

namespace Ls8

namespace Machine

open Ls8.Action Rig

theorem fetch_pc {machine : Machine} {fetched : Fetched} (h : machine.fetch = .ok fetched) :
    machine.pc.toNat ≤ 253 := by
  obtain ⟨-, -, hLast⟩ := fetch_eq_ok_iff.mp h
  have hInside : machine.pc.toNat + 2 < 256 := Memory.read_lt hLast
  omega

theorem fetch_address {machine : Machine} {fault : Fault} (h : machine.fetch = .error fault) :
    fault = .addressOutOfRange (max machine.pc.toNat Memory.size) := by
  rw [fetch_eq] at h
  simp only [bind, Except.bind, pure, Except.pure] at h
  cases hFirst : machine.memory.read machine.pc.toNat with
  | error fault' =>
    obtain ⟨hPast, rfl⟩ := Memory.read_address hFirst
    rw [hFirst] at h
    cases h
    rw [Nat.max_eq_left hPast]
  | ok opcode =>
    have hIn := Memory.read_lt hFirst
    cases hSecond : machine.memory.read (machine.pc.toNat + 1) with
    | error fault' =>
      obtain ⟨hPast, rfl⟩ := Memory.read_address hSecond
      rw [hFirst, hSecond] at h
      cases h
      congr 1
      omega
    | ok a =>
      have hIn' := Memory.read_lt hSecond
      cases hThird : machine.memory.read (machine.pc.toNat + 2) with
      | error fault' =>
        obtain ⟨hPast, rfl⟩ := Memory.read_address hThird
        rw [hFirst, hSecond, hThird] at h
        cases h
        congr 1
        omega
      | ok b =>
        rw [hFirst, hSecond, hThird] at h
        cases h

/-! ## The control state -/

/-- The control state: where the program is, and whether it has ended. -/
def place (machine : Machine) : UInt64 × Bool := (machine.pc, machine.halted)

theorem setRegister_place (index : Nat) (value : UInt8) :
    Keeps place (setRegister index value) :=
  setRegister_keeps (fun _ _ => rfl) index value

/-! ## Where an instruction leads -/

/-- Whether a jump is taken: always, or as the last comparison has it. The other instructions of the
control unit do not jump. -/
def takes? (machine : Machine) : ControlOp → Option Bool
  | .jump => some true
  | .jumpIfEqual => some machine.comparedEqual
  | .jumpIfNotEqual => some !machine.comparedEqual
  | .halt | .print | .loadImmediate => none

/-- The address that an instruction with the operand `a` leads to: that of the next instruction, or
the one in the register that a jump names. -/
inductive Leads (machine : Machine) (a : UInt8) : Opcode → UInt64 → Prop where
  | halt : Leads machine a (.control .halt) (machine.pc + 1)
  | loadImmediate : Leads machine a (.control .loadImmediate) (machine.pc + 3)
  | print : Leads machine a (.control .print) (machine.pc + 2)
  | jump {op : ControlOp} {target : UInt8} (taken : machine.takes? op = some true)
      (named : machine.registers.get a.toNat = .ok target) :
      Leads machine a (.control op) target.toUInt64
  | pass {op : ControlOp} (untaken : machine.takes? op = some false) :
      Leads machine a (.control op) (machine.pc + 2)
  | single {op : AluOp} (one : op ∈ [AluOp.not, .push, .pop]) :
      Leads machine a (.alu op) (machine.pc + 2)
  | double {op : AluOp} (two : op ∉ [AluOp.not, .push, .pop]) :
      Leads machine a (.alu op) (machine.pc + 3)

/-- From a cell at which an instruction can begin, none leads further than behind the last cell. -/
theorem Leads.le {machine : Machine} {a : UInt8} {opcode : Opcode} {pc : UInt64}
    (h : Leads machine a opcode pc) (hStart : machine.pc.toNat ≤ 253) : pc.toNat ≤ 256 := by
  -- So far from the greatest word no length leads around.
  have hPast : ∀ n ≤ 3, (machine.pc + .ofNat n).toNat ≤ 256 := by
    intro n hn
    have hSum := (grown_add machine.pc n).exactly (by omega)
    omega
  cases h with
  | @jump _ target =>
    have hByte : target.toNat < 256 := target.toNat_lt
    rw [UInt8.toNat_toUInt64]
    omega
  | halt => exact hPast 1 (by decide)
  | print | pass | single => exact hPast 2 (by decide)
  | loadImmediate | double => exact hPast 3 (by decide)

/-- What an instruction does to the control state of a running machine: it leads somewhere, and HLT
is what halts the machine. -/
structure Executes (machine : Machine) (opcode : Opcode) (a : UInt8) (machine' : Machine) :
    Prop where
  leads : Leads machine a opcode machine'.pc
  halted : machine'.halted = true ↔ opcode = .control .halt
  memory : opcode = .control .halt → machine'.memory = machine.memory

theorem executes_of_other {machine machine' : Machine} {opcode : Opcode} {a : UInt8}
    (hOther : opcode ≠ .control .halt) (hRunning : machine'.halted = false)
    (hLeads : Leads machine a opcode machine'.pc) : Executes machine opcode a machine' where
  leads := hLeads
  halted := iff_of_false (by rw [hRunning]; nofun) hOther
  memory h := (hOther h).elim

theorem advance_ok {length : UInt64} {machine machine' : Machine}
    (h : advance length machine = .ok () machine') :
    machine' = { machine with pc := machine.pc + length } := by
  cases h
  rfl

theorem halt_ok {machine machine' : Machine} (h : halt machine = .ok () machine') :
    machine' = { machine with halted := true, pc := machine.pc + 1 } := by
  cases h
  rfl

theorem alu_executes {op : AluOp} {a b : UInt8} {machine machine' : Machine}
    (hr : machine.halted = false) (h : alu op a b machine = .ok () machine') :
    Executes machine (.alu op) a machine' := by
  obtain ⟨-, rfl⟩ := alu_ok h
  have hCarried := carried_carry op a b machine
  refine executes_of_other nofun (hCarried.halted.trans hr) ?_
  cases op with
  | not | push | pop => exact .single (by decide)
  | add | sub | mul | and | or | xor | shl | shr | cmp => exact .double (by decide)

theorem jumpIf_executes {op : ControlOp} {taken : Bool} {a : UInt8} {machine machine' : Machine}
    (hTakes : machine.takes? op = some taken) (hr : machine.halted = false)
    (h : jumpIf taken a machine = .ok () machine') : Executes machine (.control op) a machine' := by
  have hOther : Opcode.control op ≠ .control .halt := by
    rintro ⟨⟩
    cases hTakes
  cases taken with
  | false =>
    cases h
    exact executes_of_other hOther hr (.pass hTakes)
  | true =>
    obtain ⟨target, between, hLook, hGo⟩ := bind_ok h
    obtain ⟨hNamed, rfl⟩ := look_ok hLook
    cases hGo
    exact executes_of_other hOther hr (.jump hTakes hNamed)

theorem control_executes {op : ControlOp} {a b : UInt8} {rig rig' : Rig}
    (hr : rig.machine.halted = false) (h : control op a b rig = .ok () rig') :
    Executes rig.machine (.control op) a rig'.machine := by
  cases op with
  | halt =>
    have hHalt : onMachine halt rig = .ok () rig' := h
    rw [halt_ok (onMachine_ok hHalt).1]
    exact ⟨.halt, iff_of_true rfl rfl, fun _ => rfl⟩
  | print =>
    obtain ⟨value, rig₁, hLook, hRest⟩ := bind_ok h
    obtain ⟨⟨⟩, rig₂, hPrint, hAdvance⟩ := bind_ok hRest
    have hCore₁ := (onMachine_keeps (register_keeps _)).of_ok hLook
    have hCore₂ := (print_keeps value).of_ok hPrint
    have hSame : rig₂.machine = rig.machine := congrArg Prod.fst (hCore₂.trans hCore₁)
    rw [advance_ok (onMachine_ok hAdvance).1, hSame]
    exact executes_of_other nofun hr .print
  | loadImmediate =>
    obtain ⟨⟨⟩, between, hSet, hAdvance⟩ := bind_ok (onMachine_ok h).1
    have hPlace : between.place = rig.machine.place := (setRegister_place _ _).of_ok hSet
    have hBetween : between.pc = rig.machine.pc := congrArg Prod.fst hPlace
    rw [advance_ok hAdvance, hBetween]
    exact executes_of_other nofun ((congrArg Prod.snd hPlace).trans hr) .loadImmediate
  | jump => exact jumpIf_executes rfl hr (onMachine_ok h).1
  | jumpIfEqual => exact jumpIf_executes rfl hr (onMachine_ok h).1
  | jumpIfNotEqual => exact jumpIf_executes rfl hr (onMachine_ok h).1

theorem execute_executes {opcode : Opcode} {a b : UInt8} {rig rig' : Rig}
    (hr : rig.machine.halted = false) (h : execute opcode a b rig = .ok () rig') :
    Executes rig.machine opcode a rig'.machine := by
  cases opcode with
  | control op => exact control_executes hr h
  | alu op => exact alu_executes hr (onMachine_ok h).1

/-! ## Steps -/

/-- A step that succeeds executes the instruction at the program counter. -/
theorem step_executes {rig rig' : Rig} (hr : rig.machine.halted = false)
    (h : step rig = .ok () rig') : ∃ fetched opcode, rig.machine.fetch = .ok fetched ∧
      Opcode.decode fetched.opcode = some opcode ∧
      Executes rig.machine opcode fetched.a rig'.machine := by
  obtain ⟨fetched, opcode, rig₁, hf, hd, hExecute, rfl⟩ := exists_executed hr h
  have hTraced : (traced rig).machine.halted = false := hr
  obtain ⟨hLeads, hHalted, hMemory⟩ := execute_executes hTraced hExecute
  exact ⟨fetched, opcode, hf, hd, hLeads, hHalted, hMemory⟩

/-- Of all that a step does, only the fetch can miss a cell. -/
theorem step_address {rig : Rig} {address : Nat}
    (h : step.result rig = .error (.addressOutOfRange address)) :
    address = max rig.machine.pc.toNat Memory.size := by
  obtain ⟨rig', hStep⟩ : ∃ rig', step rig = .error (.addressOutOfRange address) rig' :=
    ⟨rig.next, step_next_of_error h⟩
  obtain ⟨-, hFailure⟩ := failure_of_error hStep
  generalize hFault : Fault.addressOutOfRange address = fault at hFailure
  cases hFailure with
  | fetch hf =>
    have hFirst := hFault.trans (fetch_address hf)
    exact Fault.addressOutOfRange.inj hFirst
  | @refuse fetched _ _ _ _ he =>
    obtain ⟨rig₁, hRefuse, -⟩ := refuse_eq fetched.opcode (traced rig)
    cases hRefuse.symm.trans he
    cases hFault
  | @execute fetched opcode _ _ _ _ he =>
    subst hFault
    rcases (execute_orderly opcode fetched.a fetched.b congruence_eq).raises he with
      ⟨index, hRegister⟩ | hConsole
    · cases hRegister
    · cases hConsole

end Machine

end Ls8
