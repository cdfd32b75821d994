import Ls8.Action
import Ls8.Console
import Ls8.Log
import Ls8.Machine
import Ls8.Metrics.Usage

/-!
# Machines and their surroundings

A machine prints on a console, is counted by instruments and writes to a log. A rig is a machine
together with these.

* `Rig.onMachine`: an action of the machine alone.
* `Rig.print`, `Rig.write`: output to the console and to the log.
* `Rig.recordInstruction`, `Rig.recordProgram`: counting.
-/

namespace Ls8

/-- What is kept about machines besides their state: the counts and the log. -/
structure Instruments where
  usage : Usage := {}
  log : Log := {}
  deriving DecidableEq

/-- What surrounds a machine while it executes. -/
structure Host where
  console : Console := {}
  instruments : Instruments := {}

/-- A machine and what surrounds it. -/
structure Rig where
  machine : Machine
  host : Host := {}

namespace Rig

variable {α : Type}

/-- An action of the machine alone. -/
def onMachine (act : Action Fault Machine α) : Action Fault Rig α := fun rig =>
  match rig with
  | ⟨machine, host⟩ =>
    match act machine with
    | .ok value machine => .ok value ⟨machine, host⟩
    | .error fault machine => .error fault ⟨machine, host⟩

/-- Prints a value on a line of its own. A console that fails may have taken a part of it. -/
def print (value : UInt8) : Action Fault Rig Unit := fun rig =>
  match rig with
  | ⟨machine, ⟨console, instruments⟩⟩ =>
    match console.print value with
    | (console, true) => .ok () ⟨machine, ⟨console, instruments⟩⟩
    | (console, false) => .error .consoleFull ⟨machine, ⟨console, instruments⟩⟩

def write (level : LogLevel) (message : Machine → String) : Action Fault Rig Unit :=
  modify fun
    | ⟨machine, ⟨console, ⟨usage, log⟩⟩⟩ =>
      ⟨machine, ⟨console, ⟨usage, log.write level .machine fun _ => message machine⟩⟩⟩

def recordInstruction (opcode : Opcode) : Action Fault Rig Unit :=
  modify fun
    | ⟨machine, ⟨console, ⟨usage, log⟩⟩⟩ =>
      ⟨machine, ⟨console, ⟨usage.recordInstruction opcode, log⟩⟩⟩

/-- The rig with a run of its machine counted, which came to its end. -/
def recordProgram (rig : Rig) : Rig :=
  match rig with
  | ⟨machine, ⟨console, ⟨usage, log⟩⟩⟩ =>
    ⟨machine, ⟨console, ⟨usage.recordProgram machine.config.aluMode, log⟩⟩⟩

end Rig

end Ls8
