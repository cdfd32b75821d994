import Ls8.Config
import Ls8.Metrics.Counts
import Ls8.Opcode

/-!
# Usage of the machines

What all machines together have executed. Durations are not kept: of a histogram there
remains the number of observations.
-/

namespace Ls8

/-- The instructions and programs executed so far. -/
structure Usage where
  instructions : Counts Opcode := {}
  timings : Counts Opcode := {}
  steps : Nat := 0
  /-- Runs that came to their end, by arithmetic mode. -/
  programs : Counts AluMode := {}
  deriving DecidableEq

namespace Usage

def recordInstruction (usage : Usage) (opcode : Opcode) : Usage :=
  { usage with
    instructions := usage.instructions.increment opcode
    timings := usage.timings.increment opcode
    steps := usage.steps + 1 }

def recordProgram (usage : Usage) (mode : AluMode) : Usage :=
  { usage with programs := usage.programs.increment mode }

end Usage

end Ls8
