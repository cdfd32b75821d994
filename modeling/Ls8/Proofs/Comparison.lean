import Ls8.Proofs.Control
import Ls8.Proofs.Modes

/-!
# Conditional jumps

JEQ and JNE go by the outcome of the last comparison, which register 4 holds until something else
is put there.

* `Machine.instruction?`: the instruction that the next step attempts, with its operand bytes.
* `Instruction.target?`: the register that an instruction writes. `value_next`, `value_after`: all
  other registers stay as they are, through one step and through any number of them.
* `step_of_cmp`: what a comparison leaves in register 4.
* `Jumps`: what a jump does that is taken under a condition. `jumps_of_takes`: so does every jump.
* `jump_obeys_comparison`: the condition is that of the last comparison.
-/

namespace Ls8

/-- An instruction with its operand bytes. -/
structure Instruction where
  opcode : Opcode
  a : UInt8
  b : UInt8
  deriving DecidableEq

/-- The register that an instruction writes, if it writes one. -/
def Instruction.target? : Instruction → Option Nat
  | ⟨.control .loadImmediate, a, _⟩ => some a.toNat
  | ⟨.control _, _, _⟩ => none
  | ⟨.alu op, a, _⟩ => op.target? a

theorem compareFlags_eq_equalFlag_iff {left right : UInt8} :
    compareFlags left right = equalFlag ↔ left = right := by
  rw [← UInt8.toNat_inj, AluOp.toNat_compareFlags, ← UInt8.toNat_inj]
  show _ = 1 ↔ _
  split
  · omega
  · split <;> omega

theorem Registers.flags_eq_value (registers : Registers) :
    registers.flags = registers.value Registers.flagsIndex := by
  rw [Registers.flags, Registers.value, Vector.getElem?_eq_getElem (by decide), Option.getD_some]

namespace Machine

open Ls8.Action Rig

/-- The instruction that the next step attempts: none if the machine has halted, and none if its
bytes cannot be fetched or are no instruction. -/
def instruction? (machine : Machine) : Option Instruction :=
  if machine.halted then none
  else
    match machine.fetch with
    | .ok fetched => (Opcode.decode fetched.opcode).map fun opcode =>
      ⟨opcode, fetched.a, fetched.b⟩
    | .error _ => none

theorem instruction?_of_fetched {machine : Machine} {fetched : Fetched}
    (h : machine.halted = false) (hf : machine.fetch = .ok fetched) : machine.instruction? =
      (Opcode.decode fetched.opcode).map fun opcode => ⟨opcode, fetched.a, fetched.b⟩ := by
  simp [instruction?, h, hf]

theorem instruction?_eq_some {machine : Machine} {opcode : Opcode} {a b : UInt8}
    (h : machine.instruction? = some ⟨opcode, a, b⟩) : machine.halted = false ∧
      ∃ byte, machine.fetch = .ok ⟨byte, a, b⟩ ∧ Opcode.decode byte = some opcode := by
  unfold instruction? at h
  split at h
  · cases h
  · next hRunning =>
    split at h
    · next fetched hf =>
      obtain ⟨_, hd, hSame⟩ := Option.map_eq_some_iff.mp h
      cases hSame
      exact ⟨by simpa using hRunning, fetched.opcode, hf, hd⟩
    · cases h

/-! ## Registers that an instruction does not write -/

variable {index : Nat}

theorem setRegister_value {target : UInt8} (hOther : target.toNat ≠ index)
    (hIndex : index < Registers.count) (value : UInt8) :
    Keeps (fun machine : Machine => machine.registers.value index)
      (setRegister target.toNat value) := by
  intro machine
  by_cases hTarget : target.toNat < Registers.count
  · rw [after_of_ok (setRegister_of_lt hTarget value)]
    exact (Registers.value_put _ _ _ hIndex).trans (if_neg hOther)
  · have hMissing := setRegister_eq target value machine
    rw [ending_cons_of_le (Nat.not_lt.mp hTarget)] at hMissing
    rw [after_of_error hMissing]

theorem execute_value {opcode : Opcode} {a b : UInt8}
    (hOther : Instruction.target? ⟨opcode, a, b⟩ ≠ some index) (hIndex : index < Registers.count) :
    Keeps (fun rig : Rig => rig.machine.registers.value index) (execute opcode a b) := by
  refine @execute_keeps _ (fun machine => machine.registers.value index) (fun _ _ _ => rfl)
    opcode a b (fun hLoad => ?_) fun op hOp machine => ?_
  · subst hLoad
    exact setRegister_value (fun hSame => hOther (congrArg some hSame)) hIndex b
  · subst hOp
    have hCarried := (carried_carry op a b machine).register hIndex
    have hTarget : op.target? a ≠ some index := hOther
    rw [if_neg hTarget] at hCarried
    exact UInt8.toNat_inj.mp hCarried

/-- **A step leaves alone all registers but the one that its instruction writes**, whatever comes
of it. -/
theorem value_next {rig : Rig} (hIndex : index < Registers.count)
    (hOther : ∀ instruction ∈ rig.machine.instruction?, instruction.target? ≠ some index) :
    rig.next.machine.registers.value index = rig.machine.registers.value index := by
  cases hr : rig.machine.halted with
  | true => rw [next_of_ok (step_of_halted hr)]
  | false =>
    cases hs : step rig with
    | error fault rig' =>
      rw [next, after_of_error hs]
      obtain ⟨-, -, ⟨-, hMachine⟩ | ⟨_, -, -, -, hMachine, -⟩⟩ := step_error hs <;> rw [hMachine]
    | ok _ rig' =>
      obtain ⟨fetched, opcode, rig₁, hf, hd, hExecute, rfl⟩ := exists_executed hr hs
      rw [instruction?_of_fetched hr hf, hd] at hOther
      have hKept := (execute_value (hOther _ rfl) hIndex).of_ok hExecute
      rw [next_of_ok hs]
      exact hKept

theorem value_after {rig : Rig} {n : Nat} (hIndex : index < Registers.count)
    (hOther : ∀ k < n, ∀ instruction ∈ (rig.after k).machine.instruction?,
      instruction.target? ≠ some index) :
    (rig.after n).machine.registers.value index = rig.machine.registers.value index := by
  induction n with
  | zero => rfl
  | succ n ih =>
    rw [after_succ', value_next hIndex (hOther n n.lt_succ_self)]
    exact ih fun k hk => hOther k (hk.trans n.lt_succ_self)

/-! ## Comparisons -/

/-- A comparison that succeeds leaves its outcome in register 4, even if it compares that one. -/
theorem step_of_cmp {rig : Rig} {a b : UInt8}
    (h : rig.machine.instruction? = some ⟨.alu .cmp, a, b⟩) (hs : step.result rig = .ok ()) :
    ∃ left right, rig.machine.registers.get a.toNat = .ok left ∧
      rig.machine.registers.get b.toNat = .ok right ∧
      rig.next.machine.registers.value Registers.flagsIndex = compareFlags left right := by
  obtain ⟨hr, byte, hf, hd⟩ := instruction?_eq_some h
  have hStep : step rig = .ok () rig.next :=
    step_next_of_result fun fault hFault => by rw [hs] at hFault; cases hFault
  obtain ⟨fetched, opcode, rig₁, hf', hd', hExecute, hCounted⟩ := exists_executed hr hStep
  cases hf.symm.trans hf'
  cases hd.symm.trans hd'
  have hAlu : onMachine (alu .cmp a b) (traced rig) = .ok () rig₁ := hExecute
  obtain ⟨hNeeded, hAfter⟩ := alu_ok (onMachine_ok hAlu).1
  refine ⟨_, _, Registers.get_of_lt (hNeeded a (by simp [AluOp.needs])),
    Registers.get_of_lt (hNeeded b (by simp [AluOp.needs])), ?_⟩
  rw [hCounted]
  show rig₁.machine.registers.value 4 = _
  rw [hAfter]
  exact (Registers.value_put _ _ _ (by decide : 4 < Registers.count)).trans (if_pos rfl)

/-! ## Jumps -/

/-- What the next step does if it is a jump to the address in a register, taken under a condition.
A jump that is not taken does not look at the register. -/
structure Jumps (rig : Rig) (named : UInt8) (taken : Prop) : Prop where
  goes (condition : taken) (named_lt : named.toNat < Registers.count) :
    ∃ target rig', rig.machine.registers.get named.toNat = .ok target ∧
      step rig = .ok () rig' ∧ rig'.machine = { rig.machine with
        pc := target.toUInt64, steps := rig.machine.steps + 1 }
  passes (condition : ¬taken) : ∃ rig', step rig = .ok () rig' ∧
    rig'.machine.pc.toNat = rig.machine.pc.toNat + 2 ∧ rig'.machine = { rig.machine with
      pc := rig.machine.pc + 2, steps := rig.machine.steps + 1 }
  fails (condition : taken) (le_named : Registers.count ≤ named.toNat) :
    step.result rig = .error (.registerOutOfRange named.toNat)

theorem execute_jump {op : ControlOp} {taken : Bool} {rig : Rig}
    (h : rig.machine.takes? op = some taken) (a b : UInt8) :
    execute (.control op) a b rig = onMachine (jumpIf taken a) rig := by
  cases op with
  | jump | jumpIfEqual | jumpIfNotEqual =>
    cases h
    rfl
  | halt | print | loadImmediate => cases h

theorem jumps_of_takes {rig : Rig} {op : ControlOp} {named unused : UInt8} {taken : Bool}
    (h : rig.machine.instruction? = some ⟨.control op, named, unused⟩)
    (hTakes : rig.machine.takes? op = some taken) : Jumps rig named (taken = true) := by
  obtain ⟨hr, byte, hf, hd⟩ := instruction?_eq_some h
  have hTraced : (traced rig).machine.takes? op = some taken := hTakes
  have hExecute := execute_jump hTraced named unused
  constructor
  case goes =>
    rintro rfl hNamed
    have hTarget : rig.machine.registers.get named.toNat = .ok _ := Registers.get_of_lt hNamed
    have hJump := onMachine_of_ok (traced rig).host (jumpIf_of_taken hTarget)
    exact ⟨_, _, hTarget, step_of_executed hr hf hd (hExecute.trans hJump), rfl⟩
  case passes =>
    intro hUntaken
    obtain rfl := Bool.eq_false_iff.mpr hUntaken
    have hStart := fetch_pc hf
    have hNext := (grown_add rig.machine.pc 2).exactly (by omega)
    exact ⟨_, step_of_executed hr hf hd hExecute, hNext, rfl⟩
  case fails =>
    rintro rfl hNamed
    have hMissing : register named.toNat rig.machine =
        .error (.registerOutOfRange named.toNat) rig.machine :=
      look_of_error (Registers.get_of_le hNamed)
    have hJump : jumpIf true named rig.machine =
        .error (.registerOutOfRange named.toNat) rig.machine := bind_of_error hMissing
    have hFails := hExecute.trans (onMachine_of_error (traced rig).host hJump)
    rw [result, step_of_fetched hr hf, perform_some hd, bind_of_error hFails]

theorem Jumps.congr {rig : Rig} {named : UInt8} {taken taken' : Prop}
    (h : Jumps rig named taken) (hSame : taken ↔ taken') : Jumps rig named taken' :=
  propext hSame ▸ h

/-- **A conditional jump obeys the last comparison.** Take any number of steps after a comparison
that has succeeded, none of which attempts an instruction that writes register 4. If a JEQ is next,
it is taken if the two registers held the same before the comparison, and a JNE is taken if they
did not. The jump goes to the address that its register holds by then. One that is not taken goes
on behind its two bytes, whatever register it names. -/
theorem jump_obeys_comparison {rig : Rig} {a b : UInt8} {n : Nat}
    (hCompare : rig.machine.instruction? = some ⟨.alu .cmp, a, b⟩)
    (hCompared : step.result rig = .ok ())
    (hBetween : ∀ k < n, ∀ instruction ∈ (rig.next.after k).machine.instruction?,
      instruction.target? ≠ some Registers.flagsIndex) :
    ∃ left right, rig.machine.registers.get a.toNat = .ok left ∧
      rig.machine.registers.get b.toNat = .ok right ∧ ∀ named unused,
        ((rig.next.after n).machine.instruction? =
            some ⟨.control .jumpIfEqual, named, unused⟩ →
          Jumps (rig.next.after n) named (left = right)) ∧
        ((rig.next.after n).machine.instruction? =
            some ⟨.control .jumpIfNotEqual, named, unused⟩ →
          Jumps (rig.next.after n) named (left ≠ right)) := by
  obtain ⟨left, right, hLeft, hRight, hFlags⟩ := step_of_cmp hCompare hCompared
  have hKept : (rig.next.after n).machine.flags = compareFlags left right := by
    rw [flags, Registers.flags_eq_value, value_after (by decide) hBetween, hFlags]
  have hEqual : (rig.next.after n).machine.comparedEqual = true ↔ left = right := by
    rw [comparedEqual, beq_iff_eq, hKept, compareFlags_eq_equalFlag_iff]
  refine ⟨left, right, hLeft, hRight, fun named unused => ⟨fun h => ?_, fun h => ?_⟩⟩
  · exact (jumps_of_takes h rfl).congr hEqual
  · refine (jumps_of_takes h rfl).congr ?_
    rw [ne_eq, ← hEqual, Bool.not_eq_true', Bool.not_eq_true]

/-- A program that compares register 0 with register 1, loads register 2, and jumps there if the
two are equal. -/
def comparing : Rig where
  machine := { Machine.new {} with
    memory := Memory.zero.overlay [0xa7, 0, 1, 0x82, 2, 9, 0x55, 2] 0 }

theorem jump_obeys_comparison_comparing :
    comparing.machine.instruction? = some ⟨.alu .cmp, 0, 1⟩ ∧ step.result comparing = .ok () ∧
    (∀ k < 1, ∀ instruction ∈ (comparing.next.after k).machine.instruction?,
      instruction.target? ≠ some Registers.flagsIndex) ∧
    (comparing.next.after 1).machine.instruction? = some ⟨.control .jumpIfEqual, 2, 0⟩ ∧
    ∃ left right, comparing.machine.registers.get 0 = .ok left ∧
      comparing.machine.registers.get 1 = .ok right ∧ left = right ∧
      Jumps (comparing.next.after 1) 2 (left = right) := by
  have hCompare : comparing.machine.instruction? = some ⟨.alu .cmp, 0, 1⟩ := by decide +kernel
  have hCompared : step.result comparing = .ok () := by decide +kernel
  have hBetween : ∀ k < 1, ∀ instruction ∈ (comparing.next.after k).machine.instruction?,
      instruction.target? ≠ some Registers.flagsIndex := by
    decide +kernel
  have hNext : (comparing.next.after 1).machine.instruction? =
      some ⟨.control .jumpIfEqual, 2, 0⟩ := by
    decide +kernel
  obtain ⟨left, right, hLeft, hRight, hJump⟩ :=
    jump_obeys_comparison hCompare hCompared hBetween
  have hSame : comparing.machine.registers.get 0 = comparing.machine.registers.get 1 := by
    decide +kernel
  exact ⟨hCompare, hCompared, hBetween, hNext, left, right, hLeft, hRight,
    Except.ok.inj (hLeft.symm.trans (hSame.trans hRight)), (hJump 2 0).1 hNext⟩

end Machine

end Ls8
