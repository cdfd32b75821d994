import Ls8.Json.Basic
import Ls8.Snapshot

/-!
# Snapshots as JSON

Writers and readers of the records that make up a snapshot. A reader takes an object with the
fields in any order, or a list of the fields in the order in which they are written; unknown
members of an object are passed over.

* `Config.toJson`, `Config.ofJson?`; the same for `MachineState` and `Snapshot`.
-/

namespace Ls8

/-! ## Configurations -/

def AluMode.toJson (mode : AluMode) : Json := .string mode.name

/-- The mode of a name, which has no capitals. -/
def AluMode.ofName? (name : String) : Option AluMode :=
  [AluMode.compatible, .corrected].find? (·.name == name)

def AluMode.ofJson? (value : Json) : Option AluMode := value.choice?.bind AluMode.ofName?

/-- The bound of the counts in documents. -/
def countBound : Nat := UInt64.size

def countOfJson? (value : Json) : Option Nat := value.natural? countBound

def wordOfJson? (value : Json) : Option UInt64 := (countOfJson? value).map .ofNat

def Config.toJson (config : Config) : Json :=
  .object [
    ("alu_mode", config.aluMode.toJson),
    ("max_steps", .ofOption (.natural ·.toNat) config.maxSteps)]

/-- Reads a configuration; the step limit may be absent. -/
def Config.ofJson? (value : Json) : Option Config := do
  guard (value.isRecord ["alu_mode", "max_steps"])
  let aluMode ← value.required 0 "alu_mode" AluMode.ofJson?
  let maxSteps ← value.optional 1 "max_steps" wordOfJson?
  return { aluMode, maxSteps }

/-! ## States -/

def Registers.toJson (registers : Registers) : Json := .ofBytes registers.toList

/-- Registers with the given contents, if there is one for each. -/
def Registers.ofList? (values : List UInt8) : Option Registers :=
  if whole : values.length = Registers.count then some ⟨⟨values.toArray, whole⟩⟩ else none

def Registers.ofJson? (value : Json) : Option Registers := value.bytes?.bind Registers.ofList?

/-- The fields of a state in the order in which they are written. -/
def MachineState.fields : List String :=
  ["registers", "flags", "pc", "sp", "steps", "halted", "config"]

def MachineState.toJson (state : MachineState) : Json :=
  .object [
    ("registers", state.registers.toJson),
    ("flags", .natural state.flags.toNat),
    ("pc", .natural state.pc.toNat),
    ("sp", .natural state.sp.toNat),
    ("steps", .natural state.steps.toNat),
    ("halted", .bool state.halted),
    ("config", state.config.toJson)]

def MachineState.ofJson? (value : Json) : Option MachineState := do
  guard (value.isRecord MachineState.fields)
  let registers ← value.required 0 "registers" Registers.ofJson?
  let flags ← value.required 1 "flags" Json.byte?
  let pc ← value.required 2 "pc" wordOfJson?
  let sp ← value.required 3 "sp" Json.byte?
  let steps ← value.required 4 "steps" wordOfJson?
  let halted ← value.required 5 "halted" Json.bool?
  let config ← value.required 6 "config" Config.ofJson?
  return { registers, flags, pc, sp, steps, halted, config }

/-! ## Snapshots -/

def Timestamp.ofJson? (value : Json) : Option Timestamp := value.string?.bind Timestamp.parse?

def Timestamp.toJson (time : Timestamp) : Json := .string time.text

namespace Snapshot

def fields : List String :=
  ["id", "machine_id", "cpu_state", "memory_dump", "created_at", "size_bytes"]

def toJson (snapshot : Snapshot) : Json :=
  .object [
    ("id", .string snapshot.id),
    ("machine_id", .string snapshot.machineId),
    ("cpu_state", snapshot.state.toJson),
    ("memory_dump", .ofBytes snapshot.dump),
    ("created_at", snapshot.createdAt.toJson),
    ("size_bytes", .natural snapshot.sizeBytes.toNat)]

def ofJson? (value : Json) : Option Snapshot := do
  guard (value.isRecord fields)
  let id ← value.required 0 "id" Json.string?
  let machineId ← value.required 1 "machine_id" Json.string?
  let state ← value.required 2 "cpu_state" MachineState.ofJson?
  let dump ← value.required 3 "memory_dump" Json.bytes?
  let createdAt ← value.required 4 "created_at" Timestamp.ofJson?
  let sizeBytes ← value.required 5 "size_bytes" wordOfJson?
  return { id, machineId, state, dump, createdAt, sizeBytes }

end Snapshot

end Ls8
