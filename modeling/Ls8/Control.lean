import Ls8.Alu
import Ls8.Rig

/-!
# The control unit

* `Machine.control`: carries out a control instruction. The program counter moves last, after
  whatever may fail.
* `Machine.jumpIf`: a jump, or the way past it.
-/

namespace Ls8.Machine

open Rig (onMachine)

/-- Stops the machine behind the instruction. -/
def halt : Action Fault Machine Unit := do
  modify fun machine => { machine with halted := true }
  advance 1

/-- Goes to the address in register `a` if `taken`, else on to the next instruction. An
operand that names no register matters only to a jump that is taken. -/
def jumpIf (taken : Bool) (a : UInt8) : Action Fault Machine Unit :=
  if taken then do
    let target ← register a.toNat
    modify fun machine => { machine with pc := target.toUInt64 }
  else advance 2

def comparedEqual (machine : Machine) : Bool := machine.flags == equalFlag

def control (op : ControlOp) (a b : UInt8) : Action Fault Rig Unit :=
  match op with
  | .halt => onMachine halt
  | .print => do
    Rig.print (← onMachine (register a.toNat))
    onMachine (advance 2)
  | .loadImmediate => onMachine do
    setRegister a.toNat b
    advance 3
  | .jump => onMachine (jumpIf true a)
  | .jumpIfEqual => onMachine do jumpIf (← get).comparedEqual a
  | .jumpIfNotEqual => onMachine do jumpIf (!(← get).comparedEqual) a

end Ls8.Machine
