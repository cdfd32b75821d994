import Ls8.Text.Radix

/-!
# Faults

What can stop an LS-8 machine, and how each cause is worded.
-/

namespace Ls8

/-- Why an instruction, an access or a run did not succeed. -/
inductive Fault where
  | addressOutOfRange (address : Nat)
  | registerOutOfRange (index : Nat)
  /-- The byte at `pc` is no opcode. -/
  | unrecognizedOpcode (byte : UInt8) (pc : UInt64)
  | unsupportedOperation (name : String)
  | stepLimitExceeded (limit : UInt64)
  | consoleFull
  deriving DecidableEq, Repr

def Fault.message : Fault → String
  | .addressOutOfRange address => s!"memory address {address} is out of range (0-255)"
  | .registerOutOfRange index => s!"register index {index} is out of range (0-7)"
  | .unrecognizedOpcode byte pc =>
    "unrecognized opcode 0b" ++ Radix.binary 8 byte.toNat ++ " (0x" ++ Radix.hex 2 byte.toNat
      ++ ") at PC " ++ Radix.hex 2 pc.toNat
  | .unsupportedOperation name => "unsupported ALU operation: " ++ name
  | .stepLimitExceeded limit => s!"step limit of {limit} reached before HLT"
  | .consoleFull => "console write failed: console full"

end Ls8
