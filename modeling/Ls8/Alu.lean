import Ls8.Action
import Ls8.Machine

/-!
# The arithmetic unit

* `Machine.alu`: carries out one operation on the operand bytes `a` and `b` and moves the
  program counter past the instruction. It fails, and nothing changes, if it needs a
  register that does not exist; the first operand is looked at before the second.
* `shiftLeft`, `shiftRight`, `compareFlags`: the operations on bytes that are more than a
  wrapping arithmetic or a bitwise one.
-/

namespace Ls8

/-- `value` moved left by `amount` bits; all bits are gone from 8 on. -/
def shiftLeft (value amount : UInt8) : UInt8 :=
  if amount < 8 then value <<< amount else 0

def shiftRight (value amount : UInt8) : UInt8 :=
  if amount < 8 then value >>> amount else 0

def equalFlag : UInt8 := 0b001

def greaterFlag : UInt8 := 0b010

def lessFlag : UInt8 := 0b100

/-- The one flag that tells how `left` compares with `right`. -/
def compareFlags (left right : UInt8) : UInt8 :=
  if left < right then lessFlag else if left > right then greaterFlag else equalFlag

namespace Machine

def isCorrected (machine : Machine) : Bool := machine.config.aluMode == .corrected

/-! ## Access to registers and cells -/

def register (index : Nat) : Action Fault Machine UInt8 :=
  Action.look fun machine => machine.registers.get index

def setRegister (index : Nat) (value : UInt8) : Action Fault Machine Unit := do
  let registers ← Action.look fun machine => machine.registers.set index value
  modify fun machine => { machine with registers }

def readCell (address : Nat) : Action Fault Machine UInt8 :=
  Action.look fun machine => machine.memory.read address

def writeCell (address : Nat) (value : UInt8) : Action Fault Machine Unit := do
  let memory ← Action.look fun machine => machine.memory.write address value
  modify fun machine => { machine with memory }

def advance (length : UInt64) : Action Fault Machine Unit :=
  modify fun machine => { machine with pc := machine.pc + length }

/-! ## Operations -/

def combineRegisters (a b : UInt8) (combine : UInt8 → UInt8 → UInt8) :
    Action Fault Machine Unit := do
  let left ← register a.toNat
  let right ← register b.toNat
  setRegister a.toNat (combine left right)

/-- Puts `combine` into register `a`, applied to the registers in corrected mode and to the
operand bytes themselves in compatible mode. -/
def combineBits (a b : UInt8) (combine : UInt8 → UInt8 → UInt8) : Action Fault Machine Unit := do
  if (← get).isCorrected then combineRegisters a b combine
  else setRegister a.toNat (combine a b)

/-- Puts the complement of register `a` into it, or of the byte `a` in compatible mode. -/
def complement (a : UInt8) : Action Fault Machine Unit := do
  if (← get).isCorrected then
    let operand ← register a.toNat
    setRegister a.toNat (~~~operand)
  else setRegister a.toNat (~~~a)

/-- Puts register `a` on the stack, which grows downwards and wraps around below 0. -/
def push (a : UInt8) : Action Fault Machine Unit := do
  let value ← register a.toNat
  modify fun machine => { machine with sp := machine.sp - 1 }
  writeCell (← get).sp.toNat value

def pop (a : UInt8) : Action Fault Machine Unit := do
  let value ← readCell (← get).sp.toNat
  setRegister a.toNat value
  modify fun machine => { machine with sp := machine.sp + 1 }

def compareRegisters (a b : UInt8) : Action Fault Machine Unit := do
  let left ← register a.toNat
  let right ← register b.toNat
  setRegister Registers.flagsIndex (compareFlags left right)

/-- Carries out an operation, the program counter left where it is. -/
def operate (op : AluOp) (a b : UInt8) : Action Fault Machine Unit :=
  match op with
  | .add => combineRegisters a b (· + ·)
  | .sub => do
    if (← get).isCorrected then combineRegisters a b (· - ·)
    else combineRegisters a b (· * ·)
  | .mul => combineRegisters a b (· * ·)
  | .and => combineBits a b (· &&& ·)
  | .or => combineBits a b (· ||| ·)
  | .xor => combineBits a b (· ^^^ ·)
  | .shl => combineBits a b shiftLeft
  | .shr => combineBits a b shiftRight
  | .not => complement a
  | .push => push a
  | .pop => pop a
  | .cmp => compareRegisters a b

/-- Carries out an operation and moves on to the next instruction. -/
def alu (op : AluOp) (a b : UInt8) : Action Fault Machine Unit := do
  operate op a b
  advance op.length

end Machine

end Ls8
