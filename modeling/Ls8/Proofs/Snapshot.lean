import Ls8.Snapshot
import Ls8.Proofs.Calls
import Ls8.Proofs.Dump

/-!
# Snapshots restored

A machine restored from a snapshot is the one that the snapshot was taken of, whatever it was
before. Memory is the part of it that takes more than a copy: its dump has to stand for all cells
(`expand_compress`), and loading them has to leave none of the old ones (`load_toList`).

A snapshot need not have been taken of any machine. It may come from a document, with a dump that no
machine has written, or with flags and a size that do not go with the rest.

* `Snapshot.machineWith`: the machine that a snapshot describes, beside its memory.
  `restore_of_dump`: it is what is restored if the dump stands for that memory.
* `restore_lossless`: a snapshot that was taken of a machine restores it.
* `restore_all_or_nothing`: any snapshot is restored altogether, or changes nothing.
-/

namespace Ls8

namespace Memory

theorem length_toList (memory : Memory) : memory.toList.length = size := by
  rw [toList, Vector.length_toList]

/-- As many bytes as there are cells replace all cells. -/
theorem overlay_toList (memory other : Memory) : other.overlay memory.toList 0 = memory := by
  obtain ⟨cells⟩ := memory
  refine congrArg Memory.mk (Vector.ext fun address hAddress => ?_)
  simp [toList]

theorem load_toList (memory other : Memory) : other.load memory.toList 0 = .ok memory := by
  have hFits : ¬0 + memory.toList.length > size := by
    rw [length_toList]
    omega
  simp only [load, if_neg hFits, overlay_toList]

/-- A byte for each cell makes a memory. -/
theorem exists_toList {bytes : List UInt8} (h : bytes.length = size) :
    ∃ memory : Memory, memory.toList = bytes :=
  ⟨⟨⟨bytes.toArray, h⟩⟩, rfl⟩

end Memory

namespace Snapshot

theorem bytesOfDump_compress (memory : Memory) :
    bytesOfDump (Dump.compress memory.toList) = .ok memory.toList := by
  simp only [bytesOfDump, Dump.expand_compress, if_pos memory.length_toList]

/-- The machine that a snapshot describes, the memory apart. -/
def machineWith (snapshot : Snapshot) (memory : Memory) : Machine where
  memory
  registers := snapshot.state.registers
  sp := snapshot.state.sp
  pc := snapshot.state.pc
  halted := snapshot.state.halted
  steps := snapshot.state.steps
  config := snapshot.state.config

/-- Nothing is left of the machine that was there before. -/
theorem restore_of_dump {snapshot : Snapshot} {memory : Memory}
    (h : bytesOfDump snapshot.dump = .ok memory.toList) (other : Machine) :
    snapshot.restore other = .ok () (snapshot.machineWith memory) := by
  have hBytes : Action.look (fun _ => bytesOfDump snapshot.dump) other =
      .ok memory.toList other := Action.look_of_ok h
  have hMemory : Action.look (fun before : Machine =>
      (before.memory.load memory.toList 0).mapError
        fun _ => SnapshotError.wrongSize memory.toList.length) other = .ok memory other := by
    apply Action.look_of_ok
    rw [Memory.load_toList]
    rfl
  refine (Action.bind_of_ok hBytes).trans ((Action.bind_of_ok hMemory).trans ?_)
  rfl

/-- Nothing of the machine's state is forgotten. -/
theorem restore_capture (id machineId : String) (createdAt : Timestamp) (machine other : Machine) :
    (capture id machineId createdAt machine).restore other = .ok () machine :=
  restore_of_dump (bytesOfDump_compress machine.memory) other

/-- A snapshot that cannot be restored is found out before anything is changed. -/
theorem restore_spares (snapshot : Snapshot) :
    Action.Spares (fun machine => machine) snapshot.restore := by
  refine Action.spares_bind (Action.keeps_look _) fun bytes => ?_
  refine Action.spares_bind (Action.keeps_look _) fun memory => Action.Certain.spares ?_
  exact Action.certain_bind (Action.certain_modify _) fun _ =>
    Action.certain_bind (Action.certain_modify _) fun _ =>
    Action.certain_bind (Action.certain_modify _) fun _ =>
    Action.certain_bind (Action.certain_modify _) fun _ =>
    Action.certain_bind (Action.certain_modify _) fun _ =>
    Action.certain_bind (Action.certain_modify _) fun _ => Action.certain_modify _

/-- **A snapshot restores the machine that it was taken of**, in every part and into any other
machine. Hence whatever is called for from then on comes to the same as with the first machine. -/
theorem restore_lossless (id machineId : String) (createdAt : Timestamp)
    (machine other : Machine) :
    ∃ restored, (capture id machineId createdAt machine).restore other = .ok () restored ∧
      restored = machine ∧
      ∀ instruments instruments' calls, Rig.transcript restored instruments calls =
        Rig.transcript machine instruments' calls := by
  refine ⟨machine, restore_capture id machineId createdAt machine other, rfl, ?_⟩
  intro instruments instruments' calls
  exact Rig.transcript_instruments machine instruments instruments' calls

/-! ## Snapshots of any origin -/

variable {snapshot : Snapshot}

/-- The bytes of a dump that is accepted are a memory. -/
theorem exists_memory {bytes : List UInt8} (h : bytesOfDump snapshot.dump = .ok bytes) :
    ∃ memory : Memory, memory.toList = bytes := by
  unfold bytesOfDump at h
  split at h
  · cases h
  · split at h
    · next hFull =>
      cases h
      exact Memory.exists_toList hFull
    · cases h

theorem restore_of_refused {error : SnapshotError} (h : bytesOfDump snapshot.dump = .error error)
    (machine : Machine) : snapshot.restore machine = .error error machine :=
  Action.bind_of_error (Action.look_of_error h)

/-- A machine that a snapshot was restored to whose dump stands for these bytes. -/
structure Restored (snapshot : Snapshot) (bytes : List UInt8) (machine : Machine) : Prop where
  memory : machine.memory.toList = bytes
  registers : machine.registers = snapshot.state.registers
  pc : machine.pc = snapshot.state.pc
  sp : machine.sp = snapshot.state.sp
  steps : machine.steps = snapshot.state.steps
  halted : machine.halted = snapshot.state.halted
  config : machine.config = snapshot.state.config
  /-- The flags are in register 4, whatever was recorded of them. -/
  flags : snapshot.state.registers.get 4 = .ok machine.flags
  /-- A snapshot of the machine has a dump of the same bytes, and restores the same machine. -/
  again (id machineId : String) (createdAt : Timestamp) :
    bytesOfDump (capture id machineId createdAt machine).dump = .ok bytes ∧
      ∀ other, (capture id machineId createdAt machine).restore other = .ok () machine

theorem restored_machineWith (snapshot : Snapshot) (memory : Memory) :
    Restored snapshot memory.toList (snapshot.machineWith memory) where
  memory := rfl
  registers := rfl
  pc := rfl
  sp := rfl
  steps := rfl
  halted := rfl
  config := rfl
  flags := Registers.get_of_lt (by decide)
  again id machineId createdAt := by
    refine ⟨bytesOfDump_compress memory, fun other => ?_⟩
    exact restore_capture id machineId createdAt (snapshot.machineWith memory) other

/-- **A snapshot is restored altogether, or not at all.** Whatever snapshot it is, and whatever
machine it meets, only its dump decides. One that is refused is refused with the error of its dump,
and the machine stays as it was. One that is accepted can be loaded into every memory, and then all
of the machine is as the snapshot says. The recorded flags and size make no difference. -/
theorem restore_all_or_nothing (snapshot : Snapshot) (machine : Machine) :
    ((∃ after, snapshot.restore machine = .ok () after) ↔
      ∃ bytes, bytesOfDump snapshot.dump = .ok bytes) ∧
    (∀ error after, snapshot.restore machine = .error error after ↔
      bytesOfDump snapshot.dump = .error error ∧ after = machine) ∧
    (∀ bytes, bytesOfDump snapshot.dump = .ok bytes →
      (∃ memory, machine.memory.load bytes 0 = .ok memory) ∧
      ∃ after, snapshot.restore machine = .ok () after ∧ Restored snapshot bytes after) ∧
    ∀ flags sizeBytes,
      { snapshot with state := { snapshot.state with flags }, sizeBytes }.restore machine =
        snapshot.restore machine := by
  cases hDump : bytesOfDump snapshot.dump with
  | error error =>
    have hRefused := restore_of_refused hDump machine
    refine ⟨?_, fun error' after => ?_, nofun, fun _ _ => rfl⟩
    · rw [hRefused]
      exact iff_of_false nofun nofun
    · rw [hRefused, EStateM.Result.error.injEq, Except.error.injEq, eq_comm (a := machine)]
  | ok bytes =>
    obtain ⟨memory, rfl⟩ := exists_memory hDump
    have hRestored := restore_of_dump hDump machine
    refine ⟨iff_of_true ⟨_, hRestored⟩ ⟨_, rfl⟩, fun error after => ?_, ?_, fun _ _ => rfl⟩
    · rw [hRestored]
      exact iff_of_false nofun nofun
    · rintro _ ⟨⟩
      exact ⟨⟨memory, memory.load_toList machine.memory⟩, _, hRestored,
        restored_machineWith snapshot memory⟩

end Snapshot

end Ls8
