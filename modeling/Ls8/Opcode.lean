import Ls8.Fault

/-!
# Opcodes

An instruction begins with an opcode byte. The control unit carries out six of them, the
arithmetic unit the other twelve.

* `Opcode.byte`, `Opcode.decode`: the byte of an opcode and the opcode of a byte;
  `decode_byte` and `eq_byte_of_decode` say that they invert each other.
* `AluOp.name`, `AluOp.ofName`: the same between operations and their names.
* `Opcode.length`: the number of bytes of an instruction that does not jump.
-/

namespace Ls8

inductive ControlOp where
  | halt
  | print
  | loadImmediate
  | jump
  | jumpIfEqual
  | jumpIfNotEqual
  deriving DecidableEq, Repr

inductive AluOp where
  | add
  | sub
  | mul
  | and
  | or
  | xor
  | not
  | shl
  | shr
  | push
  | pop
  | cmp
  deriving DecidableEq, Repr

/-- What an opcode byte asks for, by the unit that carries it out. -/
inductive Opcode where
  | control (op : ControlOp)
  | alu (op : AluOp)
  deriving DecidableEq, Repr

/-! ## Names -/

def AluOp.name : AluOp → String
  | .add => "ADD"
  | .sub => "SUB"
  | .mul => "MUL"
  | .and => "AND"
  | .or => "OR"
  | .xor => "XOR"
  | .not => "NOT"
  | .shl => "SHL"
  | .shr => "SHR"
  | .push => "PUSH"
  | .pop => "POP"
  | .cmp => "CMP"

def AluOp.all : List AluOp :=
  [.add, .sub, .mul, .and, .or, .xor, .not, .shl, .shr, .push, .pop, .cmp]

def AluOp.ofName (name : String) : Except Fault AluOp :=
  match AluOp.all.find? (·.name == name) with
  | some op => .ok op
  | none => .error (.unsupportedOperation name)

def ControlOp.name : ControlOp → String
  | .halt => "HLT"
  | .print => "PRN"
  | .loadImmediate => "LDI"
  | .jump => "JMP"
  | .jumpIfEqual => "JEQ"
  | .jumpIfNotEqual => "JNE"

def Opcode.mnemonic : Opcode → String
  | .control op => op.name
  | .alu op => op.name

/-! ## Lengths -/

/-- The bytes of an arithmetic instruction: the opcode, and one operand for the operations
that use a single register, else two. -/
def AluOp.length : AluOp → UInt64
  | .not | .push | .pop => 2
  | _ => 3

def ControlOp.length : ControlOp → UInt64
  | .halt => 1
  | .loadImmediate => 3
  | _ => 2

def Opcode.length : Opcode → UInt64
  | .control op => op.length
  | .alu op => op.length

/-! ## Bytes -/

def Opcode.all : List Opcode :=
  [.control .halt, .control .loadImmediate, .control .print, .control .jump,
   .control .jumpIfEqual, .control .jumpIfNotEqual] ++ AluOp.all.map .alu

def Opcode.byte : Opcode → UInt8
  | .control .halt => 0b00000001
  | .control .loadImmediate => 0b10000010
  | .control .print => 0b01000111
  | .control .jump => 0b01010100
  | .control .jumpIfEqual => 0b01010101
  | .control .jumpIfNotEqual => 0b01010110
  | .alu .add => 0b10100000
  | .alu .sub => 0b10100001
  | .alu .mul => 0b10100010
  | .alu .cmp => 0b10100111
  | .alu .and => 0b10101000
  | .alu .or => 0b10101010
  | .alu .xor => 0b10101011
  | .alu .not => 0b01101001
  | .alu .shl => 0b10101100
  | .alu .shr => 0b10101101
  | .alu .push => 0b01000101
  | .alu .pop => 0b01000110

def Opcode.decode (byte : UInt8) : Option Opcode :=
  match byte with
  | 0b00000001 => some (.control .halt)
  | 0b10000010 => some (.control .loadImmediate)
  | 0b01000111 => some (.control .print)
  | 0b01010100 => some (.control .jump)
  | 0b01010101 => some (.control .jumpIfEqual)
  | 0b01010110 => some (.control .jumpIfNotEqual)
  | 0b10100000 => some (.alu .add)
  | 0b10100001 => some (.alu .sub)
  | 0b10100010 => some (.alu .mul)
  | 0b10100111 => some (.alu .cmp)
  | 0b10101000 => some (.alu .and)
  | 0b10101010 => some (.alu .or)
  | 0b10101011 => some (.alu .xor)
  | 0b01101001 => some (.alu .not)
  | 0b10101100 => some (.alu .shl)
  | 0b10101101 => some (.alu .shr)
  | 0b01000101 => some (.alu .push)
  | 0b01000110 => some (.alu .pop)
  | _ => none

namespace Opcode

theorem mem_all (opcode : Opcode) : opcode ∈ all := by
  rcases opcode with op | op <;> cases op <;> decide

@[simp]
theorem decode_byte (opcode : Opcode) : decode opcode.byte = some opcode := by
  rcases opcode with op | op <;> cases op <;> rfl

theorem eq_byte_of_decode {byte : UInt8} {opcode : Opcode} (found : decode byte = some opcode) :
    byte = opcode.byte := by
  unfold decode at found
  split at found <;> cases found <;> rfl

/-- A byte is decoded to an opcode exactly if it is that opcode's byte. -/
theorem decode_eq_some_iff {byte : UInt8} {opcode : Opcode} :
    decode byte = some opcode ↔ byte = opcode.byte :=
  ⟨eq_byte_of_decode, fun same => same ▸ decode_byte opcode⟩

end Opcode

end Ls8
