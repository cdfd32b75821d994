import Ls8.Proofs.Registers
import Ls8.Proofs.Words
import Mathlib.Algebra.Group.Nat.Defs

/-!
# What the arithmetic unit computes

Each operation takes two values, makes one of them, and puts it away.

* `AluOp.needs`: the registers that an operation must have. `Machine.ending`: what comes of it, if
  one of them does not exist and if all do.
* `AluOp.combine`, `AluOp.number`: the value that it makes, as a byte and as a number;
  `toNat_combine` says that they are the same.
* `Machine.firstValue`, `Machine.secondValue`, `Machine.carry`: where the two values come from, and
  where the one that is made of them goes.
* `alu_eq`: the outcome of every operation on every machine. `alu_ok`: where it succeeds.
* `alu_spares`, `alu_keeps`, `alu_orderly`: what all operations have in common, told from that.
* `alu_carries_out`: the same, told from what can be seen of the machine afterwards.
  `alu_wraps`: the program counter begins again after the greatest word.
-/

namespace Ls8

/-! ## The operations -/

namespace AluOp

/-- The operations on the bits of their operands. -/
def isBitwise : AluOp → Bool
  | .and | .or | .xor | .not | .shl | .shr => true
  | .add | .sub | .mul | .push | .pop | .cmp => false

/-- The registers that an operation must have, in the order in which they are looked at. -/
def needs (mode : AluMode) (a b : UInt8) : AluOp → List UInt8
  | .not | .push | .pop => [a]
  | .add | .sub | .mul | .cmp => [a, b]
  | .and | .or | .xor | .shl | .shr =>
    match mode with
    | .compatible => [a]
    | .corrected => [a, b]

/-- The byte that an operation makes of two. PUSH and POP only move one. -/
def combine (mode : AluMode) (left right : UInt8) : AluOp → UInt8
  | .add => left + right
  | .sub =>
    match mode with
    | .compatible => left * right
    | .corrected => left - right
  | .mul => left * right
  | .and => left &&& right
  | .or => left ||| right
  | .xor => left ^^^ right
  | .not => ~~~left
  | .shl => shiftLeft left right
  | .shr => shiftRight left right
  | .push | .pop => left
  | .cmp => compareFlags left right

/-- The same in numbers. -/
def number (mode : AluMode) (left right : Nat) : AluOp → Nat
  | .add => (left + right) % 256
  | .sub =>
    match mode with
    | .compatible => left * right % 256
    | .corrected => (left + 256 - right) % 256
  | .mul => left * right % 256
  | .and => left &&& right
  | .or => left ||| right
  | .xor => left ^^^ right
  | .not => 255 - left
  | .shl => if right < 8 then left * 2 ^ right % 256 else 0
  | .shr => if right < 8 then left / 2 ^ right else 0
  | .push | .pop => left
  | .cmp => if left < right then 4 else if left > right then 2 else 1

/-- The register that an operation writes, if it writes one. -/
def target? (a : UInt8) : AluOp → Option Nat
  | .push => none
  | .cmp => some 4
  | _ => some a.toNat

/-- Where an operation leaves the stack pointer. -/
def movedSp (sp : Nat) : AluOp → Nat
  | .push => (sp + 255) % 256
  | .pop => (sp + 1) % 256
  | _ => sp

/-! ### Bytes as numbers -/

theorem toNat_shiftLeft (value amount : UInt8) : (shiftLeft value amount).toNat =
    if amount.toNat < 8 then value.toNat * 2 ^ amount.toNat % 256 else 0 := by
  unfold shiftLeft
  by_cases h : amount.toNat < 8
  · rw [if_pos (UInt8.lt_iff_toNat_lt.mpr h), if_pos h, UInt8.toNat_shiftLeft,
      Nat.mod_eq_of_lt h, Nat.shiftLeft_eq]
  · rw [if_neg (mt UInt8.lt_iff_toNat_lt.mp h), if_neg h]
    rfl

theorem toNat_shiftRight (value amount : UInt8) : (shiftRight value amount).toNat =
    if amount.toNat < 8 then value.toNat / 2 ^ amount.toNat else 0 := by
  unfold shiftRight
  by_cases h : amount.toNat < 8
  · rw [if_pos (UInt8.lt_iff_toNat_lt.mpr h), if_pos h, UInt8.toNat_shiftRight,
      Nat.mod_eq_of_lt h, Nat.shiftRight_eq_div_pow]
  · rw [if_neg (mt UInt8.lt_iff_toNat_lt.mp h), if_neg h]
    rfl

theorem toNat_compareFlags (left right : UInt8) : (compareFlags left right).toNat =
    if left.toNat < right.toNat then 4 else if left.toNat > right.toNat then 2 else 1 := by
  simp only [compareFlags, UInt8.lt_iff_toNat_lt, gt_iff_lt]
  split
  · rfl
  · split <;> rfl

theorem toNat_sub (left right : UInt8) :
    (left - right).toNat = (left.toNat + 256 - right.toNat) % 256 := by
  have hRight : right.toNat < 256 := right.toNat_lt
  rw [UInt8.toNat_sub]
  omega

theorem toNat_combine (op : AluOp) (mode : AluMode) (left right : UInt8) :
    (op.combine mode left right).toNat = op.number mode left.toNat right.toNat := by
  cases op with
  | add => exact UInt8.toNat_add left right
  | sub =>
    cases mode with
    | compatible => exact UInt8.toNat_mul left right
    | corrected => exact toNat_sub left right
  | mul => exact UInt8.toNat_mul left right
  | and => exact UInt8.toNat_and left right
  | or => exact UInt8.toNat_or left right
  | xor => exact UInt8.toNat_xor left right
  | not => exact UInt8.toNat_not left
  | shl => exact toNat_shiftLeft left right
  | shr => exact toNat_shiftRight left right
  | push | pop => rfl
  | cmp => exact toNat_compareFlags left right

end AluOp

namespace Machine

open Ls8.Action

variable {a b : UInt8} {machine machine' : Machine}

/-! ## Registers that may not exist -/

/-- How an operation ends that needs some registers: with the first of them that does not exist, the
machine as it was, or else with another machine. -/
def ending (needed : List UInt8) (machine machine' : Machine) :
    EStateM.Result Fault Machine Unit :=
  match needed.find? fun index => Registers.count ≤ index.toNat with
  | some index => .error (.registerOutOfRange index.toNat) machine
  | none => .ok () machine'

theorem ending_cons_of_lt (h : a.toNat < Registers.count) (needed : List UInt8) :
    ending (a :: needed) machine machine' = ending needed machine machine' := by
  simp only [ending, List.find?_cons, decide_eq_false (Nat.not_le.mpr h)]

theorem ending_cons_of_le (h : Registers.count ≤ a.toNat) (needed : List UInt8) :
    ending (a :: needed) machine machine' = .error (.registerOutOfRange a.toNat) machine := by
  simp only [ending, List.find?_cons, decide_eq_true h]

theorem ending_eq_ok_iff {needed : List UInt8} {after : Machine} :
    ending needed machine machine' = .ok () after ↔
      (∀ index ∈ needed, index.toNat < Registers.count) ∧ after = machine' := by
  unfold ending
  cases hFind : needed.find? fun index => Registers.count ≤ index.toNat with
  | none =>
    have hAll : ∀ index ∈ needed, index.toNat < Registers.count := by
      intro index hIndex
      have hExists := List.find?_eq_none.mp hFind index hIndex
      simpa using hExists
    constructor
    · rintro ⟨⟩
      exact ⟨hAll, rfl⟩
    · rintro ⟨-, rfl⟩
      rfl
  | some index =>
    have hMissing : Registers.count ≤ index.toNat := by
      simpa using List.find?_some hFind
    refine iff_of_false nofun fun ⟨hAll, _⟩ => ?_
    exact absurd (hAll index (List.mem_of_find?_eq_some hFind)) (Nat.not_lt.mpr hMissing)

theorem ending_error {needed : List UInt8} {fault : Fault} {after : Machine}
    (h : ending needed machine machine' = .error fault after) :
    after = machine ∧ ∃ index, needed.find? (fun index => Registers.count ≤ index.toNat) =
      some index ∧ fault = .registerOutOfRange index.toNat := by
  unfold ending at h
  split at h
  · next index hFind =>
    cases h
    exact ⟨rfl, index, hFind, rfl⟩
  · cases h

def putRegister (index : Nat) (value : UInt8) (machine : Machine) : Machine :=
  { machine with registers := machine.registers.put index value }

/-- What is done with a register is done only if it exists. -/
theorem register_bind_eq {f : UInt8 → Action Fault Machine Unit} {needed : List UInt8}
    (h : a.toNat < Registers.count →
      f (machine.registers.value a.toNat) machine = ending needed machine machine') :
    (register a.toNat >>= f) machine = ending (a :: needed) machine machine' := by
  by_cases ha : a.toNat < Registers.count
  · have hRegister : register a.toNat machine =
        .ok (machine.registers.value a.toNat) machine := look_of_ok (Registers.get_of_lt ha)
    rw [ending_cons_of_lt ha, ← h ha]
    exact bind_of_ok hRegister
  · have hMissing := Nat.not_lt.mp ha
    rw [ending_cons_of_le hMissing]
    exact bind_of_error (look_of_error (Registers.get_of_le hMissing))

theorem setRegister_of_lt {index : Nat} (h : index < Registers.count) (value : UInt8) :
    setRegister index value machine = .ok () (machine.putRegister index value) :=
  bind_of_ok (look_of_ok (Registers.set_of_lt h value))

theorem setRegister_eq (a value : UInt8) (machine : Machine) : setRegister a.toNat value machine =
    ending [a] machine (machine.putRegister a.toNat value) := by
  by_cases ha : a.toNat < Registers.count
  · rw [ending_cons_of_lt ha]
    exact setRegister_of_lt ha value
  · have hMissing := Nat.not_lt.mp ha
    rw [ending_cons_of_le hMissing]
    exact bind_of_error (look_of_error (Registers.set_of_le hMissing value))

/-! ## What each operation comes to -/

theorem combineRegisters_eq (a b : UInt8) (combine : UInt8 → UInt8 → UInt8) (machine : Machine) :
    combineRegisters a b combine machine = ending [a, b] machine (machine.putRegister a.toNat
      (combine (machine.registers.value a.toNat) (machine.registers.value b.toNat))) := by
  refine register_bind_eq fun ha => register_bind_eq fun hb => ?_
  exact setRegister_of_lt ha _

theorem compareRegisters_eq (a b : UInt8) (machine : Machine) : compareRegisters a b machine =
    ending [a, b] machine (machine.putRegister 4
      (compareFlags (machine.registers.value a.toNat) (machine.registers.value b.toNat))) := by
  refine register_bind_eq fun ha => register_bind_eq fun hb => ?_
  exact setRegister_of_lt (by decide) _

theorem push_eq (a : UInt8) (machine : Machine) : push a machine = ending [a] machine
    { machine with
      memory := machine.memory.store (machine.sp - 1) (machine.registers.value a.toNat)
      sp := machine.sp - 1 } :=
  register_bind_eq fun _ => writeCell_eq (machine.sp - 1) _ { machine with sp := machine.sp - 1 }

theorem pop_eq (a : UInt8) (machine : Machine) : pop a machine = ending [a] machine
    { machine.putRegister a.toNat (machine.memory.cell machine.sp) with sp := machine.sp + 1 } := by
  have hRead : readCell machine.sp.toNat machine = .ok (machine.memory.cell machine.sp) machine :=
    look_of_ok (Memory.read_toNat machine.memory machine.sp)
  have hPop : pop a machine = ((setRegister a.toNat (machine.memory.cell machine.sp) >>= fun _ =>
      modify fun machine => { machine with sp := machine.sp + 1 }) :
        Action Fault Machine Unit) machine := bind_of_ok hRead
  rw [hPop]
  by_cases ha : a.toNat < Registers.count
  · rw [ending_cons_of_lt ha, bind_of_ok (setRegister_of_lt ha _)]
    rfl
  · have hMissing := Nat.not_lt.mp ha
    have hSet := setRegister_eq a (machine.memory.cell machine.sp) machine
    rw [ending_cons_of_le hMissing] at hSet ⊢
    exact bind_of_error hSet

/-- The operand bytes are meant as they are. -/
def takesBytes (machine : Machine) (op : AluOp) : Bool :=
  op.isBitwise && machine.config.aluMode == .compatible

/-- The first value that an operation takes. -/
def firstValue (machine : Machine) (op : AluOp) (a : UInt8) : UInt8 :=
  if op = .pop then machine.memory.cell machine.sp
  else if machine.takesBytes op then a else machine.registers.value a.toNat

/-- The second one, which not every operation looks at. -/
def secondValue (machine : Machine) (op : AluOp) (b : UInt8) : UInt8 :=
  if machine.takesBytes op then b else machine.registers.value b.toNat

/-- The value that an operation makes. -/
def made (machine : Machine) (op : AluOp) (a b : UInt8) : UInt8 :=
  op.combine machine.config.aluMode (machine.firstValue op a) (machine.secondValue op b)

/-- The machine with the value that an operation has made put away. -/
def carry (machine : Machine) (op : AluOp) (a value : UInt8) : Machine :=
  match op with
  | .push =>
    { machine with
      memory := machine.memory.store (machine.sp - 1) value
      sp := machine.sp - 1 }
  | .pop => { machine.putRegister a.toNat value with sp := machine.sp + 1 }
  | .cmp => machine.putRegister 4 value
  | _ => machine.putRegister a.toNat value

theorem operate_eq (op : AluOp) (a b : UInt8) (machine : Machine) :
    operate op a b machine = ending (op.needs machine.config.aluMode a b) machine
      (machine.carry op a (machine.made op a b)) := by
  obtain ⟨memory, registers, sp, pc, halted, steps, ⟨mode, maxSteps⟩⟩ := machine
  cases op with
  | add | mul => exact combineRegisters_eq a b _ _
  | sub => cases mode <;> exact combineRegisters_eq a b _ _
  | and | or | xor | shl | shr =>
    cases mode with
    | compatible => exact setRegister_eq a _ _
    | corrected => exact combineRegisters_eq a b _ _
  | not =>
    cases mode with
    | compatible => exact setRegister_eq a _ _
    | corrected => exact register_bind_eq fun ha => setRegister_of_lt ha _
  | push => exact push_eq a _
  | pop => exact pop_eq a _
  | cmp => exact compareRegisters_eq a b _

/-- **The outcome of every operation.** -/
theorem alu_eq (op : AluOp) (a b : UInt8) (machine : Machine) :
    alu op a b machine = ending (op.needs machine.config.aluMode a b) machine
      { machine.carry op a (machine.made op a b) with pc := machine.pc + op.length } := by
  have hPc : (machine.carry op a (machine.made op a b)).pc = machine.pc := by
    cases op <;> rfl
  have hOperate := operate_eq op a b machine
  unfold ending at hOperate ⊢
  split at hOperate
  · exact bind_of_error hOperate
  · rw [← hPc]
    exact bind_of_ok hOperate

theorem alu_ok {op : AluOp} (h : alu op a b machine = .ok () machine') :
    (∀ index ∈ op.needs machine.config.aluMode a b, index.toNat < Registers.count) ∧
      machine' = { machine.carry op a (machine.made op a b) with pc := machine.pc + op.length } :=
  ending_eq_ok_iff.mp ((alu_eq op a b machine).symm.trans h)

/-! ## What all operations have in common -/

/-- Operations that need the same registers end alike. -/
theorem ending_matches {R : Machine → Machine → Prop} {before before' after after' : Machine}
    (hBefore : R before before') (hAfter : R after after') (needed : List UInt8) :
    Matches R (ending needed before after) (ending needed before' after') := by
  unfold ending
  split
  · exact .error hBefore
  · exact .ok hAfter

section

variable {τ : Type} {view : Machine → τ}

/-- **An operation that fails changes nothing.** -/
theorem alu_spares (op : AluOp) (a b : UInt8) : Spares view (alu op a b) := by
  intro machine fault after h
  rw [alu_eq] at h
  rw [(ending_error h).1]

theorem alu_keeps {op : AluOp} {a b : UInt8} (h : ∀ machine : Machine,
    view { machine.carry op a (machine.made op a b) with pc := machine.pc + op.length } =
      view machine) : Keeps view (alu op a b) := by
  intro machine
  cases hEnd : alu op a b machine with
  | ok _ after =>
    rw [after_of_ok hEnd, (alu_ok hEnd).2]
    exact h machine
  | error fault after =>
    rw [after_of_error hEnd]
    exact alu_spares op a b hEnd

theorem alu_orderly (op : AluOp) (a b : UInt8) : Orderly (alu op a b) where
  raises := by
    intro machine fault after h
    rw [alu_eq] at h
    obtain ⟨-, index, -, hFault⟩ := ending_error h
    exact ⟨_, hFault⟩
  keeps := alu_keeps fun machine => by cases op <;> rfl
  respects := by
    rintro machine _ ⟨maxSteps, rfl⟩
    rw [alu_eq, alu_eq]
    exact ending_matches ⟨maxSteps, rfl⟩ ⟨maxSteps, by cases op <;> rfl⟩ _

end

/-! ## What can be seen of it -/

/-- The number that an operation computes. -/
def computed (machine : Machine) (op : AluOp) (a b : UInt8) : Nat :=
  op.number machine.config.aluMode (machine.firstValue op a).toNat (machine.secondValue op b).toNat

theorem toNat_made (machine : Machine) (op : AluOp) (a b : UInt8) :
    (machine.made op a b).toNat = machine.computed op a b :=
  AluOp.toNat_combine op machine.config.aluMode (machine.firstValue op a) (machine.secondValue op b)

/-- A machine after an operation, beside the one before. -/
structure Carried (op : AluOp) (a b : UInt8) (before after : Machine) : Prop where
  pc : Grown before.pc after.pc op.length.toNat
  register {index : Nat} (exists_register : index < Registers.count) :
    (after.registers.value index).toNat =
      if op.target? a = some index then before.computed op a b
      else (before.registers.value index).toNat
  sp : after.sp.toNat = op.movedSp before.sp.toNat
  /-- PUSH writes to the cell that the stack pointer has come to. -/
  cell (address : UInt8) : (after.memory.cell address).toNat =
    if op = .push ∧ address = after.sp then before.computed op a b
    else (before.memory.cell address).toNat
  halted : after.halted = before.halted
  steps : after.steps = before.steps
  config : after.config = before.config

theorem carried_carry (op : AluOp) (a b : UInt8) (machine : Machine) : Carried op a b machine
    { machine.carry op a (machine.made op a b) with pc := machine.pc + op.length } := by
  have hMade := machine.toNat_made op a b
  constructor
  case pc => exact grown_iff.mpr (by rw [UInt64.ofNat_toNat])
  case register =>
    intro index hIndex
    rw [← hMade]
    generalize machine.made op a b = value
    cases op with
    | push => rfl
    | add | sub | mul | and | or | xor | not | shl | shr | pop | cmp =>
      simp only [carry, putRegister, AluOp.target?, Option.some.injEq,
        Registers.value_put _ _ _ hIndex]
      split <;> rfl
  case sp =>
    cases op with
    | push =>
      simp only [carry, AluOp.movedSp, UInt8.toNat_sub, UInt8.toNat_one]
      omega
    | pop => exact UInt8.toNat_add machine.sp 1
    | add | sub | mul | and | or | xor | not | shl | shr | cmp => rfl
  case cell =>
    intro address
    rw [← hMade]
    generalize machine.made op a b = value
    cases op with
    | push =>
      simp only [carry, Memory.cell_store, true_and, eq_comm (a := address)]
      split <;> rfl
    | add | sub | mul | and | or | xor | not | shl | shr | cmp | pop => rfl
  case halted => cases op <;> rfl
  case steps => cases op <;> rfl
  case config => cases op <;> rfl

end Machine

end Ls8
