/-!
# Configuration of a machine
-/

namespace Ls8

/-- How the arithmetic unit treats subtraction and the bitwise operations.

In `compatible` mode SUB multiplies, and AND, OR, XOR, NOT, SHL and SHR work on the operand
bytes themselves. In `corrected` mode SUB subtracts, and the bitwise operations work on the
registers that the operand bytes name. All else is the same in both. -/
inductive AluMode where
  | compatible
  | corrected
  deriving DecidableEq, Repr

def AluMode.name : AluMode → String
  | .compatible => "compatible"
  | .corrected => "corrected"

/-- What a machine is set up with: its arithmetic mode, and how many instructions one run
may execute, if that is limited. -/
structure Config where
  aluMode : AluMode := .compatible
  maxSteps : Option UInt64 := none
  deriving DecidableEq, Repr

/-- The limit of a run, if that many executed instructions use it up. -/
def Config.exhausted? (config : Config) (executed : UInt64) : Option UInt64 :=
  config.maxSteps.filter (· ≤ executed)

end Ls8
