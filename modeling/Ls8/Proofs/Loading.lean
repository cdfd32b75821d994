import Ls8.Proofs.Control
import Ls8.Proofs.Image
import Ls8.Session

/-!
# Bytes in memory

Several cells at once: what is read from them, and what is loaded into them. Loading copies all of
its bytes or none. An image that can be read never has more bytes than there are cells, so that
loading it cannot fail, and a session is refused only for what its image says.

* `Memory.Holds`: bytes in consecutive cells. `Memory.readRange_ok`, `Memory.readRange_error`: cells
  that are all there, and cells that are not.
* `Memory.Loaded`: what a memory is after bytes were loaded into it. `Memory.loaded_iff`: there is
  only one such memory.
* `Memory.loading`: loading as an action, of which a failure leaves a memory, too.
  `Memory.loading_eq_ok_iff`, `Memory.loading_eq_error_iff`: when it succeeds and when it fails.
* `Session.Begins`: a session with nothing but its image. `Session.ofImage_eq_ok_iff`,
  `Session.ofImage_eq_error_iff`: when there is one.
* `loading_all_or_nothing`: all of this in one statement.
-/

namespace Ls8

namespace Memory

/-! ## Several cells -/

/-- The bytes `data` are in the cells from `address` on. -/
def Holds (memory : Memory) (address : Nat) (data : List UInt8) : Prop :=
  ∀ i (h : i < data.length), memory.read (address + i) = .ok data[i]

section

variable {memory : Memory} {address : Nat}

theorem Holds.cons {value : UInt8} {data : List UInt8} (hFirst : memory.read address = .ok value)
    (h : memory.Holds (address + 1) data) : memory.Holds address (value :: data) := by
  intro i hi
  cases i with
  | zero => exact hFirst
  | succ i =>
    have hShift : address + (i + 1) = address + 1 + i := by omega
    rw [hShift, List.getElem_cons_succ]
    exact h i (Nat.lt_of_succ_lt_succ hi)

theorem readRange_ok {count : Nat} (h : count = 0 ∨ address + count ≤ size) :
    ∃ data, memory.readRange address count = .ok data ∧ data.length = count ∧
      memory.Holds address data := by
  induction count generalizing address with
  | zero => exact ⟨[], rfl, rfl, fun i hi => (Nat.not_lt_zero i hi).elim⟩
  | succ count ih =>
    have hFits : count = 0 ∨ address + 1 + count ≤ size := by omega
    obtain ⟨data, hRest, hLength, hHolds⟩ := ih hFits
    have hFirst := read_eq memory address
    rw [dif_pos (by omega)] at hFirst
    refine ⟨memory.cells[address] :: data, ?_, congrArg (· + 1) hLength, hHolds.cons hFirst⟩
    rw [readRange, hFirst, hRest]
    rfl

theorem readRange_error {count : Nat} (hSome : 0 < count) (h : size < address + count) :
    memory.readRange address count = .error (.addressOutOfRange (max address size)) := by
  induction count generalizing address with
  | zero => exact (Nat.lt_irrefl 0 hSome).elim
  | succ count ih =>
    have hFirst := read_eq memory address
    by_cases hInside : address < size
    · have hMax : max (address + 1) size = max address size := by omega
      have hPast : size < address + 1 + count := by omega
      have hRest := ih (by omega) hPast
      rw [dif_pos hInside] at hFirst
      rw [hMax] at hRest
      rw [readRange, hFirst]
      simp only [bind, Except.bind, hRest]
    · rw [dif_neg hInside] at hFirst
      rw [readRange, hFirst, Nat.max_eq_left (by omega)]
      rfl

end

/-- A memory is known by what is read from it. -/
theorem eq_of_read {memory other : Memory}
    (h : ∀ address, memory.read address = other.read address) : memory = other := by
  obtain ⟨cells⟩ := memory
  obtain ⟨cells'⟩ := other
  refine congrArg Memory.mk (Vector.ext fun address hAddress => ?_)
  have hRead := h address
  rw [read_eq, read_eq, dif_pos hAddress, dif_pos hAddress] at hRead
  exact Except.ok.inj hRead

theorem toList_inj {memory other : Memory} : memory.toList = other.toList ↔ memory = other := by
  rw [toList, toList, Vector.toList_inj]
  exact ⟨congrArg Memory.mk, congrArg Memory.cells⟩

/-! ## Loading -/

variable {memory : Memory} {data : List UInt8} {start address : Nat}

theorem getElem_overlay (memory : Memory) (data : List UInt8) (start : Nat)
    (hAddress : address < size) : (memory.overlay data start).cells[address] =
      if start ≤ address then data[address - start]?.getD memory.cells[address]
      else memory.cells[address] := by
  simp only [overlay, Vector.getElem_ofFn]
  rfl

theorem holds_overlay (hFits : start + data.length ≤ size) :
    (memory.overlay data start).Holds start data := by
  intro i hi
  have hAddress : start + i < size := by omega
  have hByte : data[start + i - start]? = some data[i] := by
    rw [Nat.add_sub_cancel_left, List.getElem?_eq_getElem hi]
  rw [read_eq, dif_pos hAddress, getElem_overlay _ _ _ hAddress, if_pos (Nat.le_add_right start i),
    hByte, Option.getD_some]

theorem read_overlay (h : address < start ∨ start + data.length ≤ address) :
    (memory.overlay data start).read address = memory.read address := by
  rw [read_eq, read_eq]
  split
  · next hAddress =>
    rw [getElem_overlay _ _ _ hAddress]
    split
    · next hStart =>
      have hNone : data[address - start]? = none := List.getElem?_eq_none (by omega)
      rw [hNone, Option.getD_none]
    · rfl
  · rfl

/-- The bytes are in the cells from `start` on, and all other cells are as they were before. -/
structure Loaded (before : Memory) (data : List UInt8) (start : Nat) (after : Memory) : Prop where
  holds : after.Holds start data
  others : ∀ address, address < start ∨ start + data.length ≤ address →
    after.read address = before.read address

theorem loaded_iff {after : Memory} (hFits : start + data.length ≤ size) :
    Loaded memory data start after ↔ after = memory.overlay data start := by
  constructor
  · intro h
    apply eq_of_read
    intro address
    by_cases hOther : address < start ∨ start + data.length ≤ address
    · rw [h.others address hOther, read_overlay hOther]
    · obtain ⟨i, rfl⟩ : ∃ i, address = start + i := ⟨address - start, by omega⟩
      have hi : i < data.length := by omega
      rw [h.holds i hi, holds_overlay hFits i hi]
  · rintro rfl
    exact ⟨holds_overlay hFits, fun _ => read_overlay⟩

theorem load_of_le (h : start + data.length ≤ size) :
    memory.load data start = .ok (memory.overlay data start) :=
  if_neg (Nat.not_lt.mpr h)

theorem load_of_lt (h : size < start + data.length) :
    memory.load data start = .error (.addressOutOfRange (start + data.length - 1)) :=
  if_pos h

/-- Even no bytes at all are refused beyond the end of memory. -/
example : zero.load [] (size + 1) = .error (.addressOutOfRange size) := rfl

/-- Loading as something that is done to a memory. -/
def loading (data : List UInt8) (start : Nat) : Action Fault Memory Unit := do
  set (← Action.look fun memory : Memory => memory.load data start)

theorem loading_of_le (h : start + data.length ≤ size) :
    loading data start memory = .ok () (memory.overlay data start) :=
  Action.bind_of_ok (Action.look_of_ok (load_of_le h))

theorem loading_of_lt (h : size < start + data.length) :
    loading data start memory = .error (.addressOutOfRange (start + data.length - 1)) memory :=
  Action.bind_of_error (Action.look_of_error (load_of_lt h))

theorem exists_loading_iff :
    (∃ after, loading data start memory = .ok () after) ↔ start + data.length ≤ size := by
  constructor
  · rintro ⟨after, hLoad⟩
    by_contra hPast
    rw [loading_of_lt (Nat.not_le.mp hPast)] at hLoad
    cases hLoad
  · intro hFits
    exact ⟨_, loading_of_le hFits⟩

theorem loading_eq_ok_iff {after : Memory} : loading data start memory = .ok () after ↔
    start + data.length ≤ size ∧ Loaded memory data start after := by
  by_cases hFits : start + data.length ≤ size
  · rw [loading_of_le hFits, loaded_iff hFits, EStateM.Result.ok.injEq, eq_comm (b := after)]
    exact and_congr_left fun _ => iff_of_true rfl hFits
  · rw [loading_of_lt (Nat.not_le.mp hFits)]
    exact iff_of_false nofun fun h => hFits h.1

/-- What is reported is the address of the last byte, which is past the last cell. -/
theorem loading_eq_error_iff {fault : Fault} {after : Memory} :
    loading data start memory = .error fault after ↔ ∃ last, size ≤ last ∧
      start + data.length = last + 1 ∧ fault = .addressOutOfRange last ∧ after = memory := by
  constructor
  · intro hLoad
    by_cases hFits : start + data.length ≤ size
    · rw [loading_of_le hFits] at hLoad
      cases hLoad
    · rw [loading_of_lt (Nat.not_le.mp hFits)] at hLoad
      cases hLoad
      exact ⟨_, by omega, by omega, rfl, rfl⟩
  · rintro ⟨last, hPast, hLast, rfl, rfl⟩
    have hFull : size < start + data.length := by omega
    rw [loading_of_lt hFull, hLast, Nat.add_sub_cancel]

theorem toList_overlay_zero (h : data.length ≤ size) :
    (zero.overlay data 0).toList = data ++ List.replicate (size - data.length) 0 := by
  refine List.ext_getElem (by simp [toList, h]) fun address hAddress _ => ?_
  have hInside : address < size := by simpa [toList] using hAddress
  have hZero : zero.cells[address] = 0 := Vector.getElem_replicate hInside
  simp only [toList, Vector.getElem_toList]
  rw [getElem_overlay _ _ _ hInside, if_pos (Nat.zero_le address), Nat.sub_zero,
    List.getElem_append, hZero]
  split
  · next hi => rw [List.getElem?_eq_getElem hi, Option.getD_some]
  · next hi =>
    rw [List.getElem?_eq_none (Nat.not_lt.mp hi), Option.getD_none, List.getElem_replicate]

end Memory

/-! ## New sessions -/

theorem Machine.load_of_le (machine : Machine) {image : List UInt8}
    (h : image.length ≤ Memory.size) :
    machine.load image = .ok { machine with memory := machine.memory.overlay image 0 } := by
  have hFits : 0 + image.length ≤ Memory.size := by omega
  simp only [Machine.load, Memory.load_of_le hFits]

/-- An image that is small enough can be loaded. -/
theorem Machine.exists_load (machine : Machine) {image : List UInt8}
    (h : image.length ≤ Memory.size) : ∃ loaded, machine.load image = .ok loaded :=
  ⟨_, machine.load_of_le h⟩

namespace Session

variable {source : String} {config : Config} {createdAt : Timestamp}

/-- A new session whose memory has the bytes of an image and zeros after them. -/
structure Begins (image : List UInt8) (config : Config) (createdAt : Timestamp)
    (session : Session) : Prop where
  memory : session.machine.memory.toList =
    image ++ List.replicate (Memory.size - image.length) 0
  machine : session.machine = { Machine.new config with memory := session.machine.memory }
  createdAt : session.createdAt = createdAt
  console : session.console = .empty

theorem begins_iff {image : List UInt8} {session : Session} (h : image.length ≤ Memory.size) :
    Begins image config createdAt session ↔ session =
      { machine := { Machine.new config with memory := Memory.zero.overlay image 0 }
        createdAt } := by
  constructor
  · rintro ⟨hMemory, hMachine, hCreated, hConsole⟩
    rw [← Memory.toList_overlay_zero h, Memory.toList_inj] at hMemory
    obtain ⟨machine, _, _⟩ := session
    simp only at hMemory hMachine hCreated hConsole
    rw [hMachine, hMemory, hCreated, hConsole]
  · rintro rfl
    exact ⟨Memory.toList_overlay_zero h, rfl, rfl, rfl⟩

theorem ofImage_of_error {error : ImageError} (h : Image.parse source = .error error) :
    ofImage source config createdAt = .error error := by
  rw [ofImage, h]
  rfl

theorem ofImage_of_ok {image : List UInt8} (h : Image.parse source = .ok image) :
    ofImage source config createdAt = .ok
      { machine := { Machine.new config with memory := Memory.zero.overlay image 0 }
        createdAt } := by
  have hLoad := (Machine.new config).load_of_le (Image.length_le_of_parse h)
  simp only [ofImage, h, hLoad, bind, Except.bind]
  rfl

theorem ofImage_eq_error_iff {error : ImageError} :
    ofImage source config createdAt = .error error ↔ Image.parse source = .error error := by
  cases hParse : Image.parse source with
  | error error' => rw [ofImage_of_error hParse, Except.error.injEq, Except.error.injEq]
  | ok image =>
    rw [ofImage_of_ok hParse]
    exact iff_of_false nofun nofun

theorem ofImage_eq_ok_iff {session : Session} : ofImage source config createdAt = .ok session ↔
    ∃ image, Image.parse source = .ok image ∧ Begins image config createdAt session := by
  cases hParse : Image.parse source with
  | error error =>
    rw [ofImage_of_error hParse]
    exact iff_of_false nofun nofun
  | ok image =>
    have hFits := Image.length_le_of_parse hParse
    rw [ofImage_of_ok hParse, Except.ok.injEq]
    constructor
    · intro hSession
      exact ⟨image, rfl, (begins_iff hFits).mpr hSession.symm⟩
    · rintro ⟨_, hSame, hBegins⟩
      cases hSame
      exact ((begins_iff hFits).mp hBegins).symm

/-- **Loading is all or nothing.** Bytes can be loaded exactly if the last of them has a cell. Then
they are in the cells from the start on, and nothing else has changed; else nothing has changed at
all, and the address that is reported is that of the last byte, past the last cell. Hence a session
has all of its image or is refused, and only for what the image says: an image that can be read can
also be loaded. -/
theorem loading_all_or_nothing :
    (∀ (memory : Memory) (data : List UInt8) (start : Nat),
      ((∃ after, Memory.loading data start memory = .ok () after) ↔
        start + data.length ≤ Memory.size) ∧
      (∀ after, Memory.loading data start memory = .ok () after ↔
        start + data.length ≤ Memory.size ∧ Memory.Loaded memory data start after) ∧
      ∀ fault after, Memory.loading data start memory = .error fault after ↔
        ∃ last, Memory.size ≤ last ∧ start + data.length = last + 1 ∧
          fault = .addressOutOfRange last ∧ after = memory) ∧
    ∀ (source : String) (config : Config) (createdAt : Timestamp),
      (∀ error, ofImage source config createdAt = .error error ↔
        Image.parse source = .error error) ∧
      (∀ session, ofImage source config createdAt = .ok session ↔
        ∃ image, Image.parse source = .ok image ∧ Begins image config createdAt session) ∧
      ∀ image, Image.parse source = .ok image →
        ∃ machine, (Machine.new config).load image = .ok machine := by
  constructor
  · intro memory data start
    refine ⟨Memory.exists_loading_iff, fun after => ?_, fun fault after => ?_⟩
    · exact Memory.loading_eq_ok_iff
    · exact Memory.loading_eq_error_iff
  · intro source config createdAt
    refine ⟨fun error => ?_, fun session => ?_, fun image hParse => ?_⟩
    · exact ofImage_eq_error_iff
    · exact ofImage_eq_ok_iff
    · exact (Machine.new config).exists_load (Image.length_le_of_parse hParse)

end Session

end Ls8
