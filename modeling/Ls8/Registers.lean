import Ls8.Fault

/-!
# Registers

Eight registers of one byte. Register 4 holds the outcome of the last comparison and
register 7 seeds the stack pointer; here all are alike.
-/

namespace Ls8

abbrev Registers.count : Nat := 8

structure Registers where
  slots : Vector UInt8 Registers.count
  deriving DecidableEq

namespace Registers

def zero : Registers := ⟨Vector.replicate count 0⟩

def toList (registers : Registers) : List UInt8 := registers.slots.toList

def get (registers : Registers) (index : Nat) : Except Fault UInt8 :=
  match registers.slots[index]? with
  | some value => .ok value
  | none => .error (.registerOutOfRange index)

def set (registers : Registers) (index : Nat) (value : UInt8) : Except Fault Registers :=
  if inside : index < count then .ok ⟨registers.slots.set index value inside⟩
  else .error (.registerOutOfRange index)

/-- The register that a comparison writes. -/
abbrev flagsIndex : Nat := 4

/-- The register that gives a new machine its stack pointer. -/
abbrev stackSeedIndex : Nat := 7

def flags (registers : Registers) : UInt8 :=
  registers.slots[flagsIndex]

def stackSeed (registers : Registers) : UInt8 :=
  registers.slots[stackSeedIndex]

end Registers

end Ls8
