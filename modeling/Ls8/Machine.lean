import Ls8.Config
import Ls8.Memory
import Ls8.Opcode
import Ls8.Registers

/-!
# The machine

The state of an LS-8 computer between two instructions. The program counter and the count of
steps are words of 64 bits: counting on from the greatest one leads to 0.

* `Machine.boot`: a fresh machine with given registers.
* `Machine.fetch`: the three bytes that an instruction may occupy.
* `Machine.traceLine`: the state on one line, as the log shows it.
-/

namespace Ls8

/-- Memory, registers and control state. The stack pointer is taken from register 7 when the
machine is built; from then on the two are independent. -/
structure Machine where
  memory : Memory
  registers : Registers
  /-- Stack pointer: the cell of the last pushed value. -/
  sp : UInt8
  /-- Program counter: the address of the next opcode. -/
  pc : UInt64
  halted : Bool
  /-- The instructions executed so far. -/
  steps : UInt64
  config : Config
  deriving DecidableEq

namespace Machine

/-- A machine with zeroed memory and the given registers, about to run from address 0. -/
def boot (registers : Registers) (config : Config) : Machine where
  memory := .zero
  registers := registers
  sp := registers.stackSeed
  pc := 0
  halted := false
  steps := 0
  config := config

def new (config : Config) : Machine := boot .zero config

/-- The machine with `image` copied to memory from address 0 on. -/
def load (machine : Machine) (image : List UInt8) : Except Fault Machine :=
  match machine.memory.load image 0 with
  | .ok memory => .ok { machine with memory }
  | .error fault => .error fault

def flags (machine : Machine) : UInt8 := machine.registers.flags

/-- What the control unit reads before it looks at the opcode. -/
structure Fetched where
  opcode : UInt8
  a : UInt8
  b : UInt8
  deriving DecidableEq

/-- The byte at the program counter and the two after it. All three are read, however short
the instruction is. -/
def fetch (machine : Machine) : Except Fault Fetched := do
  let opcode ← machine.memory.read machine.pc.toNat
  let a ← machine.memory.read (machine.pc + 1).toNat
  let b ← machine.memory.read (machine.pc + 2).toNat
  return { opcode, a, b }

/-! ## Trace lines -/

/-- A cell in two hexadecimal digits, or `--` past the end of memory. -/
def peek (memory : Memory) (address : UInt64) : String :=
  match memory.read address.toNat with
  | .ok value => Radix.hex 2 value.toNat
  | .error _ => "--"

/-- The program counter, the three bytes there, and the registers. -/
def traceLine (machine : Machine) : String :=
  let pc := machine.pc
  let cells := [pc, pc + 1, pc + 2].map (peek machine.memory)
  let registers := machine.registers.toList.map fun value => Radix.hex 2 value.toNat
  "TRACE: " ++ Radix.hex 2 pc.toNat ++ " | " ++ " ".intercalate cells ++ " | "
    ++ " ".intercalate registers

end Machine

end Ls8
