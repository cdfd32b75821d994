import Ls8.Alu
import Ls8.Proofs.Action

/-!
# Registers and cells

The parts that instructions are made of.

* `Memory.read_eq`: what is read at any address. `Memory.read_toNat`, `Memory.write_toNat`: an
  address of one byte always names a cell.
* `Registers.value`, `Registers.put`: what registers hold. `Registers.get_of_lt` and the lemmas after
  it say when there is one.
* `Orderly`: the only failure is a register that does not exist, nothing touches the counter of
  steps or the configuration, and the limit of steps makes no difference. So it is with every part
  of an instruction.
* `setRegister_spares`, `setRegister_keeps`: writing to a register that does not exist changes
  nothing, and to one that exists, registers alone.
-/

namespace Ls8

/-! ## Cells -/

namespace Memory

theorem read_eq (memory : Memory) (address : Nat) : memory.read address =
    if inside : address < size then .ok memory.cells[address]
    else .error (.addressOutOfRange address) := by
  unfold read
  split
  · next value h =>
    obtain ⟨inside, hValue⟩ := Vector.getElem?_eq_some_iff.mp h
    rw [dif_pos inside, hValue]
  · next h =>
    rw [dif_neg (by rwa [Vector.getElem?_eq_none_iff, Nat.not_lt.symm] at h)]

theorem read_lt {memory : Memory} {address : Nat} {value : UInt8}
    (h : memory.read address = .ok value) : address < size := by
  rw [read_eq] at h
  split at h
  · next inside => exact inside
  · cases h

theorem read_address {memory : Memory} {address : Nat} {fault : Fault}
    (h : memory.read address = .error fault) :
    size ≤ address ∧ fault = .addressOutOfRange address := by
  rw [read_eq] at h
  split at h
  · cases h
  · next outside =>
    cases h
    exact ⟨Nat.not_lt.mp outside, rfl⟩

theorem read_toNat (memory : Memory) (address : UInt8) :
    memory.read address.toNat = .ok (memory.cell address) := by
  simp only [read, Vector.getElem?_eq_getElem (toNat_lt_size address)]
  rfl

theorem write_toNat (memory : Memory) (address value : UInt8) :
    memory.write address.toNat value = .ok (memory.store address value) :=
  dif_pos (toNat_lt_size address)

theorem cell_store (memory : Memory) (address value other : UInt8) :
    (memory.store address value).cell other =
      if address = other then value else memory.cell other := by
  have hOther := toNat_lt_size other
  show (memory.cells.set address.toNat value (toNat_lt_size address))[other.toNat] = _
  rw [Vector.getElem_set]
  simp only [UInt8.toNat_inj]
  rfl

end Memory

/-! ## Registers by number -/

/-- A fault about a register that does not exist. -/
def Fault.IsRegister (fault : Fault) : Prop := ∃ index, fault = .registerOutOfRange index

namespace Registers

variable {registers : Registers} {index : Nat}

/-- What a register holds. Nothing depends on what is taken for one that does not exist. -/
def value (registers : Registers) (index : Nat) : UInt8 := registers.slots[index]?.getD 0

def put (registers : Registers) (index : Nat) (value : UInt8) : Registers :=
  ⟨registers.slots.setIfInBounds index value⟩

theorem get_of_lt (h : index < count) : registers.get index = .ok (registers.value index) := by
  simp only [get, value, Vector.getElem?_eq_getElem h, Option.getD_some]

theorem get_of_le (h : count ≤ index) :
    registers.get index = .error (.registerOutOfRange index) := by
  simp only [get, Vector.getElem?_eq_none h]

theorem set_of_lt (h : index < count) (value : UInt8) :
    registers.set index value = .ok (registers.put index value) := by
  have hSlots : registers.slots.set index value h = registers.slots.setIfInBounds index value := by
    ext other hOther
    rw [Vector.getElem_set, Vector.getElem_setIfInBounds hOther]
  rw [set, dif_pos h, put, hSlots]

theorem set_of_le (h : count ≤ index) (value : UInt8) :
    registers.set index value = .error (.registerOutOfRange index) :=
  dif_neg (Nat.not_lt.mpr h)

theorem value_put (registers : Registers) (index : Nat) (value : UInt8) {other : Nat}
    (h : other < count) : (registers.put index value).value other =
      if index = other then value else registers.value other := by
  simp only [Registers.value, put, Vector.getElem?_setIfInBounds]
  by_cases hSame : index = other
  · subst hSame
    rw [if_pos rfl, if_pos rfl, if_pos h, Option.getD_some]
  · rw [if_neg hSame, if_neg hSame]

theorem get_error {registers : Registers} {index : Nat} {fault : Fault}
    (h : registers.get index = .error fault) : fault.IsRegister := by
  unfold get at h
  split at h <;> cases h
  exact ⟨index, rfl⟩

theorem set_error {registers : Registers} {index : Nat} {value : UInt8} {fault : Fault}
    (h : registers.set index value = .error fault) : fault.IsRegister := by
  unfold set at h
  split at h <;> cases h
  exact ⟨index, rfl⟩

end Registers

namespace Machine

open Ls8.Action

/-- What no instruction touches by itself: the counter of steps and the configuration. -/
def bookkeeping (machine : Machine) : UInt64 × Config := (machine.steps, machine.config)

/-- The machine with another limit for its runs. -/
def withLimit (maxSteps : Option UInt64) (machine : Machine) : Machine :=
  { machine with config := { machine.config with maxSteps } }

/-- The machines differ in nothing but the limit of their runs. -/
def Alike (machine machine' : Machine) : Prop := ∃ maxSteps, machine' = machine.withLimit maxSteps

/-- What all parts of an instruction have in common: they fail only if a register does not exist,
leave the bookkeeping alone, and do not look at the limit of steps. -/
abbrev Orderly {α : Type} (act : Action Fault Machine α) : Prop :=
  Within Fault.IsRegister bookkeeping Alike act

variable {α : Type}

theorem orderly_look {read : Machine → Except Fault α}
    (he : ∀ machine fault, read machine = .error fault → fault.IsRegister)
    (hl : ∀ machine maxSteps, read (machine.withLimit maxSteps) = read machine) :
    Orderly (look read) := by
  apply within_look he
  rintro machine _ ⟨maxSteps, rfl⟩
  exact hl machine maxSteps

theorem orderly_modify {f : Machine → Machine}
    (hb : ∀ machine, (f machine).bookkeeping = machine.bookkeeping)
    (hl : ∀ machine maxSteps, f (machine.withLimit maxSteps) = (f machine).withLimit maxSteps) :
    Orderly (modify f) := by
  apply within_modify hb
  rintro machine _ ⟨maxSteps, rfl⟩
  exact ⟨maxSteps, hl machine maxSteps⟩

theorem orderly_get_bind {f : Machine → Action Fault Machine α}
    (hf : ∀ machine, Orderly (f machine))
    (hl : ∀ machine maxSteps, f (machine.withLimit maxSteps) = f machine) :
    Orderly (get >>= f) := by
  apply within_get_bind hf
  rintro machine _ ⟨maxSteps, rfl⟩
  exact hl machine maxSteps

/-! ## Registers and cells -/

variable {τ : Type} {view : Machine → τ}

theorem register_keeps (index : Nat) : Keeps view (register index) := keeps_look _

theorem register_orderly (index : Nat) : Orderly (register index) :=
  orderly_look (fun _ _ h => Registers.get_error h) fun _ _ => rfl

theorem setRegister_spares (index : Nat) (value : UInt8) : Spares view (setRegister index value) :=
  spares_bind_certain (keeps_look _).spares fun _ => certain_modify _

theorem setRegister_orderly (index : Nat) (value : UInt8) : Orderly (setRegister index value) :=
  within_bind (orderly_look (fun _ _ h => Registers.set_error h) fun _ _ => rfl)
    fun _ => orderly_modify (fun _ => rfl) fun _ _ => rfl

theorem setRegister_keeps (hView : ∀ (machine : Machine) (registers : Registers),
    view { machine with registers } = view machine) (index : Nat) (value : UInt8) :
    Keeps view (setRegister index value) :=
  keeps_bind (keeps_look _) fun registers => keeps_modify fun machine => hView machine registers

theorem writeCell_eq (address value : UInt8) (machine : Machine) :
    writeCell address.toNat value machine =
      .ok () { machine with memory := machine.memory.store address value } := by
  have h : (look fun machine : Machine => machine.memory.write address.toNat value) machine =
      .ok (machine.memory.store address value) machine :=
    look_of_ok (machine.memory.write_toNat address value)
  exact bind_of_ok h

theorem advance_certain (length : UInt64) : Certain (advance length) := certain_modify _

theorem advance_orderly (length : UInt64) : Orderly (advance length) :=
  orderly_modify (fun _ => rfl) fun _ _ => rfl

end Machine

end Ls8
