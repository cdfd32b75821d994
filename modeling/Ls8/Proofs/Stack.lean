import Ls8.Proofs.Attempts
import Ls8.Proofs.Control

/-!
# The stack

What happens to the memory and to the stack pointer of a machine while it executes.

* `Machine.stack`: both together. `execute_stack`: no instruction but PUSH and POP does anything to
  them. What is written to register 7 does not either.
* `Rig.OnStack`: what one step does to them. `onStack_next`: a push, a pop, or else nothing.
* `Rig.lastPush?`: the last of some attempts at a step that has put a value in a cell.
* `Rig.Accounts`: the stack pointer and all cells, told from the attempts.
* `stack_accounts`: so they are after any number of steps, and where a run ends.
-/

namespace Ls8

namespace Machine

open Ls8.Action Rig

/-- The memory and the stack pointer. -/
def stack (machine : Machine) : Memory × UInt8 := (machine.memory, machine.sp)

/-- The value of the register that the instruction at the program counter names first. -/
def operand (machine : Machine) : Except Fault UInt8 := do
  let fetched ← machine.fetch
  machine.registers.get fetched.a.toNat

theorem operand_of_fetched {machine : Machine} {fetched : Fetched} (h : machine.fetch = .ok fetched) :
    machine.operand = machine.registers.get fetched.a.toNat := by
  rw [operand, h]
  rfl

/-! ## Instructions -/

/-- No instruction but PUSH and POP does anything to the stack. -/
theorem execute_stack {opcode : Opcode} (hPush : opcode ≠ .alu .push) (hPop : opcode ≠ .alu .pop)
    (a b : UInt8) : Keeps (fun rig : Rig => rig.machine.stack) (execute opcode a b) := by
  refine execute_keeps (fun _ _ _ => rfl) (fun _ => ?_) fun op hOp machine => ?_
  · exact setRegister_keeps (fun _ _ => rfl) a.toNat b
  · subst hOp
    cases op with
    | push => exact (hPush rfl).elim
    | pop => exact (hPop rfl).elim
    | add | sub | mul | and | or | xor | not | shl | shr | cmp => rfl

theorem execute_push_ok {a b : UInt8} {rig rig' : Rig}
    (h : execute (.alu .push) a b rig = .ok () rig') :
    ∃ value, rig.machine.registers.get a.toNat = .ok value ∧ rig'.machine.stack =
      (rig.machine.memory.store (rig.machine.sp - 1) value, rig.machine.sp - 1) := by
  obtain ⟨hNeeded, hAfter⟩ := alu_ok (onMachine_ok h).1
  have hExists : a.toNat < Registers.count := hNeeded a List.mem_cons_self
  refine ⟨_, Registers.get_of_lt hExists, ?_⟩
  rw [hAfter]
  rfl

theorem execute_pop_ok {a b : UInt8} {rig rig' : Rig}
    (h : execute (.alu .pop) a b rig = .ok () rig') :
    rig'.machine.stack = (rig.machine.memory, rig.machine.sp + 1) := by
  obtain ⟨-, hAfter⟩ := alu_ok (onMachine_ok h).1
  rw [hAfter]
  rfl

end Machine

namespace Rig

open Ls8.Action Machine

/-! ## Steps -/

/-- What a step does to the memory and to the stack pointer: a push or a pop that it executes, and
else nothing. -/
inductive OnStack (rig rig' : Rig) : Prop where
  | push {value : UInt8} (executed : rig.executed? = some (.alu .push))
      (operand : rig.machine.operand = .ok value)
      (stack : rig'.machine.stack =
        (rig.machine.memory.store (rig.machine.sp - 1) value, rig.machine.sp - 1))
  | pop (executed : rig.executed? = some (.alu .pop))
      (stack : rig'.machine.stack = (rig.machine.memory, rig.machine.sp + 1))
  | other (noPush : rig.executed? ≠ some (.alu .push)) (noPop : rig.executed? ≠ some (.alu .pop))
      (stack : rig'.machine.stack = rig.machine.stack)

variable {rig rig' : Rig}

theorem onStack_of_nothing (hNothing : rig.executed? = none)
    (hStack : rig'.machine.stack = rig.machine.stack) : OnStack rig rig' :=
  .other (by rw [hNothing]; nofun) (by rw [hNothing]; nofun) hStack

/-- **A step writes to memory only as a push, and moves the stack pointer only as a push or a
pop.** A step that fails does neither. -/
theorem onStack_next (rig : Rig) : OnStack rig rig.next := by
  cases hr : rig.machine.halted with
  | true =>
    apply onStack_of_nothing (executed?_of_halted hr)
    rw [next_of_ok (step_of_halted hr)]
  | false =>
    cases hs : step rig with
    | error fault rig' =>
      apply onStack_of_nothing (executed?_of_error (result_of_error hs))
      rw [next, after_of_error hs]
      obtain ⟨-, -, ⟨-, hMachine⟩ | ⟨_, -, -, -, hMachine, -⟩⟩ := step_error hs
      · rw [hMachine]
      · rw [hMachine]
        rfl
    | ok _ rig' =>
      rw [next_of_ok hs]
      obtain ⟨fetched, opcode, rig₁, hf, hExecuted, hExecute, rfl⟩ := exists_executed? hr hs
      by_cases hPush : opcode = .alu .push
      · subst hPush
        obtain ⟨value, hValue, hStack⟩ := execute_push_ok hExecute
        exact .push hExecuted ((operand_of_fetched hf).trans hValue) hStack
      · by_cases hPop : opcode = .alu .pop
        · subst hPop
          have hStack := execute_pop_ok hExecute
          exact .pop hExecuted hStack
        · have hStack := (execute_stack hPush hPop fetched.a fetched.b).of_ok hExecute
          rw [← Option.some_inj, ← hExecuted] at hPush hPop
          exact .other hPush hPop hStack

/-- The next step puts a value in this cell, which is the one below the stack pointer. -/
def PushesTo (rig : Rig) (address : UInt8) : Prop :=
  rig.executed? = some (.alu .push) ∧ rig.machine.sp - 1 = address

instance (rig : Rig) (address : UInt8) : Decidable (rig.PushesTo address) :=
  inferInstanceAs (Decidable (_ ∧ _))

theorem OnStack.operand_of_pushesTo {address : UInt8} (h : OnStack rig rig')
    (hPushes : rig.PushesTo address) :
    rig.machine.operand = .ok (rig'.machine.memory.cell address) := by
  obtain ⟨hExecuted, rfl⟩ := hPushes
  cases h with
  | push executed operand stack =>
    rw [(Prod.mk.inj stack).1, Memory.cell_store, if_pos rfl, operand]
  | pop executed =>
    rw [hExecuted] at executed
    cases executed
  | other noPush => exact (noPush hExecuted).elim

theorem OnStack.cell_of_not_pushesTo {address : UInt8} (h : OnStack rig rig')
    (hNot : ¬ rig.PushesTo address) :
    rig'.machine.memory.cell address = rig.machine.memory.cell address := by
  cases h with
  | push executed operand stack =>
    have hOther : rig.machine.sp - 1 ≠ address := fun hTarget => hNot ⟨executed, hTarget⟩
    rw [(Prod.mk.inj stack).1, Memory.cell_store, if_neg hOther]
  | pop executed stack => rw [(Prod.mk.inj stack).1]
  | other noPush noPop stack => rw [(Prod.mk.inj stack).1]

theorem OnStack.sp (h : OnStack rig rig') : (rig'.machine.sp.toNat : ℤ) =
    (rig.machine.sp.toNat + rig.executed?.toList.count (.alu .pop) -
      rig.executed?.toList.count (.alu .push)) % 256 := by
  have hByte : rig.machine.sp.toNat < 256 := rig.machine.sp.toNat_lt
  cases h with
  | push executed operand stack =>
    have hCounts : [Opcode.alu .push].count (.alu .pop) = 0 ∧
        [Opcode.alu .push].count (.alu .push) = 1 := by decide
    rw [(Prod.mk.inj stack).2, executed, Option.toList_some, hCounts.1, hCounts.2,
      UInt8.toNat_sub, UInt8.toNat_one]
    omega
  | pop executed stack =>
    have hCounts : [Opcode.alu .pop].count (.alu .pop) = 1 ∧
        [Opcode.alu .pop].count (.alu .push) = 0 := by decide
    rw [(Prod.mk.inj stack).2, executed, Option.toList_some, hCounts.1, hCounts.2,
      UInt8.toNat_add, UInt8.toNat_one]
    omega
  | other noPush noPop stack =>
    rw [(Prod.mk.inj stack).2, List.count_eq_zero.mpr (mt Option.mem_toList.mp noPush),
      List.count_eq_zero.mpr (mt Option.mem_toList.mp noPop)]
    omega

/-! ## Steps in a row -/

/-- The last of some attempts at a step that has put a value in a cell. -/
def lastPush? (attempts : List Rig) (address : UInt8) : Option Rig :=
  attempts.reverse.find? fun attempt => attempt.PushesTo address

/-- The stack pointer and the cells of a machine have come to those of another one by what was
attempted in between. The stack pointer has gone up with every pop and down with every push, and a
cell holds what was last pushed there, or what it held before if nothing was. -/
structure Accounts (before after : Machine) (attempts : List Rig) : Prop where
  sp : (after.sp.toNat : ℤ) = (before.sp.toNat + (executed attempts).count (.alu .pop) -
    (executed attempts).count (.alu .push)) % 256
  cell (address : UInt8) : match lastPush? attempts address with
    | some attempt => attempt.machine.operand = .ok (after.memory.cell address)
    | none => after.memory.cell address = before.memory.cell address

theorem lastPush?_concat (attempts : List Rig) (rig : Rig) (address : UInt8) :
    lastPush? (attempts ++ [rig]) address =
      if rig.PushesTo address then some rig else lastPush? attempts address := by
  rw [lastPush?, List.reverse_concat, List.find?_cons]
  by_cases h : rig.PushesTo address <;> simp [h, lastPush?]

theorem Accounts.refl (machine : Machine) : Accounts machine machine [] where
  sp := by
    have hByte : machine.sp.toNat < 256 := machine.sp.toNat_lt
    simp only [executed, List.filterMap_nil, List.count_nil]
    omega
  cell _ := rfl

/-- One more attempt is accounted for. -/
theorem Accounts.concat {before : Machine} {attempts : List Rig}
    (h : Accounts before rig.machine attempts) (hNext : OnStack rig rig') :
    Accounts before rig'.machine (attempts ++ [rig]) where
  sp := by
    have hBefore := h.sp
    have hAfter := hNext.sp
    rw [executed_append, executed_singleton, List.count_append, List.count_append]
    push_cast
    omega
  cell address := by
    rw [lastPush?_concat]
    by_cases hPushes : rig.PushesTo address
    · rw [if_pos hPushes]
      exact hNext.operand_of_pushesTo hPushes
    · rw [if_neg hPushes, hNext.cell_of_not_pushesTo hPushes]
      exact h.cell address

theorem accounts_after (rig : Rig) (n : Nat) :
    Accounts rig.machine (rig.after n).machine (rig.departures n) := by
  induction n with
  | zero => exact .refl rig.machine
  | succ n ih =>
    rw [departures, after_succ']
    exact ih.concat (onStack_next _)

/-- **The stack accounts for all that happens to the memory and to the stack pointer.** A step
touches them only as a push or as a pop that it executes. After any number of steps, and wherever
a run ends, the stack pointer has moved by the pops less the pushes, whatever the registers hold,
and a cell is as it was unless something was pushed there, and then it holds the last of that. -/
theorem stack_accounts (rig : Rig) :
    OnStack rig rig.next ∧
      (∀ n, Accounts rig.machine (rig.after n).machine (rig.departures n)) ∧
      ∀ ended, run? rig = some ended → ∃ attempts, rig.attempts? = some attempts ∧
        Accounts rig.machine (left ended).machine attempts := by
  refine ⟨onStack_next rig, accounts_after rig, fun ended ends => ?_⟩
  obtain ⟨n, hAttempts, -, rfl | ⟨fault, rfl⟩⟩ := attempts?_of_run? ends
  · exact ⟨_, hAttempts, accounts_after rig n⟩
  · exact ⟨_, hAttempts, accounts_after rig n⟩

end Rig

end Ls8
