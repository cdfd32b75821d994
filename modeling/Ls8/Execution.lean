import Ls8.Control

/-!
# Execution

* `Machine.step`: fetches, decodes and executes one instruction. A halted machine stays as
  it is. A fault leaves the machine unchanged, except that an unrecognized opcode halts it.
* `Rig.runFrom`, `Machine.run?`: steps until the machine halts, within the limit of its
  configuration if that has one. Without a limit a run need not come to an end.
* `Rig.runFor`, `Machine.runWithin`: the same run of a machine whose limit is known.
-/

namespace Ls8.Machine

open Rig (onMachine)

/-! ## One instruction -/

def execute (opcode : Opcode) (a b : UInt8) : Action Fault Rig Unit :=
  match opcode with
  | .control op => control op a b
  | .alu op => onMachine (alu op a b)

def countStep : Action Fault Machine Unit :=
  modify fun machine => { machine with steps := machine.steps + 1 }

/-- Stops the machine at a byte that is no opcode. -/
def refuse (byte : UInt8) : Action Fault Rig Unit := do
  onMachine (modify fun machine => { machine with halted := true })
  Rig.write .debug fun machine =>
    "unrecognized opcode 0x" ++ Radix.hex 2 byte.toNat ++ " at PC " ++ Radix.hex 2 machine.pc.toNat
  throw (.unrecognizedOpcode byte (← get).machine.pc)

/-- Executes a fetched instruction, which counts only if nothing in it failed. -/
def perform (fetched : Fetched) : Action Fault Rig Unit :=
  match Opcode.decode fetched.opcode with
  | none => refuse fetched.opcode
  | some opcode => do
    execute opcode fetched.a fetched.b
    onMachine countStep
    Rig.recordInstruction opcode

/-- Executes the next instruction, unless the machine has halted. The state is logged before
the fetch, which may fail. -/
def step : Action Fault Rig Unit := do
  if (← get).machine.halted then pure ()
  else
    Rig.write .trace traceLine
    perform (← onMachine (Action.look fetch))

end Ls8.Machine

/-! ## Runs -/

namespace Ls8.Rig

/-- Steps until the machine halts, where `start` is what its counter of steps showed when the
run began. There is no result if that goes on forever. -/
def runFrom (rig : Rig) (start : UInt64) : Option (EStateM.Result Fault Rig Unit) :=
  if rig.machine.halted then some (.ok () rig)
  else
    match rig.machine.config.exhausted? (rig.machine.steps - start) with
    | some limit => some (.error (.stepLimitExceeded limit) rig)
    | none =>
      match Machine.step rig with
      | .ok () rig => rig |>.runFrom start
      | .error fault rig => some (.error fault rig)
partial_fixpoint

/-- The same for a machine with a limit, of which `left` instructions are left. Such a run always
comes to an end. -/
def runFor (limit : UInt64) (left : Nat) (rig : Rig) : EStateM.Result Fault Rig Unit :=
  if rig.machine.halted then .ok () rig
  else
    match left with
    | 0 => .error (.stepLimitExceeded limit) rig
    | left + 1 =>
      match Machine.step rig with
      | .ok () rig => rig.runFor limit left
      | .error fault rig => .error fault rig

end Ls8.Rig

namespace Ls8.Machine

/-- What the caller of a run gets that began at the count `start`. A run that has come to the end
of its program is counted; the value is the number of instructions that it executed. -/
def runOutcome (start : UInt64) : EStateM.Result Fault Rig Unit → EStateM.Result Fault Rig UInt64
  | .ok () rig => .ok (rig.machine.steps - start) rig.recordProgram
  | .error fault rig => .error fault rig

/-- Runs until the machine halts. -/
def run? (rig : Rig) : Option (EStateM.Result Fault Rig UInt64) :=
  let start := rig.machine.steps
  (rig.runFrom start).map (runOutcome start)

/-- Runs a machine that has this limit. -/
def runWithin (limit : UInt64) : Action Fault Rig UInt64 := fun rig =>
  let start := rig.machine.steps
  runOutcome start (rig.runFor limit limit.toNat)

end Ls8.Machine
