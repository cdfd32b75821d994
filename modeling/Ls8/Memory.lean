import Ls8.Fault

/-!
# Memory

256 cells of one byte.

* `Memory.read`, `Memory.write`: access by an address that may be out of range.
* `Memory.cell`, `Memory.store`: access by an address of one byte, which never is.
* `Memory.readRange`: several cells at once.
* `Memory.load`: copies bytes to consecutive cells, all or none of them.
-/

namespace Ls8

abbrev Memory.size : Nat := 256

structure Memory where
  cells : Vector UInt8 Memory.size
  deriving DecidableEq

namespace Memory

def zero : Memory := ⟨Vector.replicate size 0⟩

def toList (memory : Memory) : List UInt8 := memory.cells.toList

/-- An address of one byte names a cell. -/
theorem toNat_lt_size (address : UInt8) : address.toNat < size := address.toNat_lt

def cell (memory : Memory) (address : UInt8) : UInt8 :=
  memory.cells.get ⟨address.toNat, toNat_lt_size address⟩

def store (memory : Memory) (address value : UInt8) : Memory :=
  ⟨memory.cells.set address.toNat value (toNat_lt_size address)⟩

def read (memory : Memory) (address : Nat) : Except Fault UInt8 :=
  match memory.cells[address]? with
  | some value => .ok value
  | none => .error (.addressOutOfRange address)

def write (memory : Memory) (address : Nat) (value : UInt8) : Except Fault Memory :=
  if inside : address < size then .ok ⟨memory.cells.set address value inside⟩
  else .error (.addressOutOfRange address)

/-- The `count` cells from `address` on; the first address that is out of range is the
error. -/
def readRange (memory : Memory) (address : Nat) : (count : Nat) → Except Fault (List UInt8)
  | 0 => .ok []
  | count + 1 => do
    let value ← memory.read address
    return value :: (← readRange memory (address + 1) count)

/-- The cells with those from `start` on replaced by `data`, as far as it goes. -/
def overlay (memory : Memory) (data : List UInt8) (start : Nat) : Memory :=
  ⟨Vector.ofFn fun address : Fin size =>
    if start ≤ address.val then data[address.val - start]?.getD memory.cells[address]
    else memory.cells[address]⟩

/-- Copies `data` to the cells from `start` on. If the last byte would lie past the last
cell, its address is reported and no cell changes. -/
def load (memory : Memory) (data : List UInt8) (start : Nat) : Except Fault Memory :=
  let stop := start + data.length
  if stop > size then .error (.addressOutOfRange (stop - 1))
  else .ok (memory.overlay data start)

end Memory

end Ls8
