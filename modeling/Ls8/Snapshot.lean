import Ls8.Action
import Ls8.Dump
import Ls8.Machine
import Ls8.Timestamp

/-!
# Snapshots

* `MachineState.capture`: the registers and control state of a machine.
* `Snapshot.capture`: a snapshot of a machine, its memory as a dump.
* `Snapshot.restore`: puts a machine into the state that a snapshot describes. It fails if the
  dump is not that of a whole memory.
-/

namespace Ls8

/-- A machine without its memory. -/
structure MachineState where
  registers : Registers
  /-- The outcome of the last comparison, a copy of a register. -/
  flags : UInt8
  pc : UInt64
  sp : UInt8
  steps : UInt64
  halted : Bool
  config : Config
  deriving DecidableEq

def MachineState.capture (machine : Machine) : MachineState where
  registers := machine.registers
  flags := machine.flags
  pc := machine.pc
  sp := machine.sp
  steps := machine.steps
  halted := machine.halted
  config := machine.config

structure Snapshot where
  id : String
  machineId : String
  state : MachineState
  dump : List UInt8
  createdAt : Timestamp
  sizeBytes : UInt64
  deriving DecidableEq

/-- Why a snapshot cannot be restored. -/
inductive SnapshotError where
  /-- The dump ends within the token at an offset. -/
  | truncated (offset : Nat)
  /-- The dump stands for another number of bytes than memory has cells. -/
  | wrongSize (size : Nat)
  deriving DecidableEq, Repr

def SnapshotError.message : SnapshotError → String
  | .truncated offset => s!"truncated run-length data at offset {offset}"
  | .wrongSize size => s!"memory dump expands to {size} bytes, expected {Memory.size}"

namespace Snapshot

def capture (id machineId : String) (createdAt : Timestamp) (machine : Machine) : Snapshot :=
  let dump := Dump.compress machine.memory.toList
  { id, machineId, state := .capture machine, dump, createdAt, sizeBytes := .ofNat dump.length }

/-- The bytes that a dump stands for, if there is one for each cell. -/
def bytesOfDump (dump : List UInt8) : Except SnapshotError (List UInt8) :=
  match Dump.expand dump with
  | .error offset => .error (.truncated offset)
  | .ok bytes =>
    if bytes.length = Memory.size then .ok bytes else .error (.wrongSize bytes.length)

/-- Replaces every part of the machine's state by what the snapshot recorded, memory first. The
recorded flags and size play no part. -/
def restore (snapshot : Snapshot) : Action SnapshotError Machine Unit := do
  let bytes ← Action.look fun _ => bytesOfDump snapshot.dump
  let memory ← Action.look fun machine =>
    (machine.memory.load bytes 0).mapError fun _ => .wrongSize bytes.length
  modify fun machine => { machine with memory }
  let state := snapshot.state
  modify fun machine => { machine with registers := state.registers }
  modify fun machine => { machine with pc := state.pc }
  modify fun machine => { machine with sp := state.sp }
  modify fun machine => { machine with steps := state.steps }
  modify fun machine => { machine with halted := state.halted }
  modify fun machine => { machine with config := state.config }

end Snapshot

end Ls8
