import Ls8.Proofs.DumpLength
import Ls8.Proofs.JsonRecord
import Ls8.Proofs.JsonText
import Ls8.Snapshot.Document

/-!
# Snapshots as documents

The documents that are read as a given snapshot are those that it can be written as.

* `AluMode.Written`, `Config.Written`, `MachineState.Written`, `Snapshot.Written`: the ways to write
  a snapshot and its parts. `Snapshot.ofJson?_eq_some_iff`: these are all that can be read.
* `capture_survives`: the snapshot of a machine survives being written, in each of these ways.
-/

namespace Ls8

/-! ## The parts of a snapshot -/

theorem wordOfJson?_eq_some_iff {value : Json} {word : UInt64} :
    wordOfJson? value = some word ↔ value = .natural word.toNat := by
  rw [wordOfJson?, Option.map_eq_some_iff]
  constructor
  · rintro ⟨count, hRead, rfl⟩
    obtain ⟨rfl, hBound⟩ := Json.natural?_eq_some_iff.mp hRead
    rw [UInt64.toNat_ofNat_of_lt' hBound]
  · rintro rfl
    exact ⟨word.toNat, Json.natural?_eq_some_iff.mpr ⟨rfl, word.toNat_lt⟩, UInt64.ofNat_toNat⟩

theorem Registers.ofJson?_eq_some_iff {value : Json} {registers : Registers} :
    Registers.ofJson? value = some registers ↔ value = registers.toJson := by
  rw [ofJson?, Option.bind_eq_some_iff, toJson]
  constructor
  · rintro ⟨values, hRead, hValues⟩
    rw [Json.bytes?_eq_some_iff.mp hRead]
    rw [ofList?] at hValues
    split at hValues
    · cases hValues
      rfl
    · cases hValues
  · rintro rfl
    refine ⟨registers.toList, Json.bytes?_eq_some_iff.mpr rfl, ?_⟩
    exact dif_pos registers.slots.length_toList

theorem Timestamp.ofJson?_eq_some_iff {value : Json} {time : Timestamp} :
    Timestamp.ofJson? value = some time ↔ value = time.toJson := by
  rw [ofJson?, Option.bind_eq_some_iff, toJson]
  constructor
  · rintro ⟨text, hRead, hText⟩
    rw [Json.string?_eq_some_iff.mp hRead]
    rw [parse?] at hText
    split at hText
    · cases hText
      rfl
    · cases hText
  · rintro rfl
    exact ⟨time.text, rfl, time.parse?_text⟩

namespace AluMode

/-- The ways to write a mode: its name, by itself or as the only key of an object. -/
inductive Written (mode : AluMode) : Json → Prop where
  | name : Written mode (.string mode.name)
  | key : Written mode (.object [(mode.name, .null)])

theorem ofName?_eq_some_iff {name : String} {mode : AluMode} :
    ofName? name = some mode ↔ name = mode.name := by
  constructor
  · intro h
    unfold ofName? at h
    have hName := List.find?_some h
    exact (beq_iff_eq.mp hName).symm
  · rintro rfl
    cases mode <;> decide

theorem ofJson?_eq_some_iff {value : Json} {mode : AluMode} :
    ofJson? value = some mode ↔ mode.Written value := by
  rw [ofJson?, Option.bind_eq_some_iff]
  constructor
  · rintro ⟨name, hChoice, hMode⟩
    obtain rfl := ofName?_eq_some_iff.mp hMode
    unfold Json.choice? at hChoice
    split at hChoice <;> cases hChoice
    · exact .name
    · exact .key
  · intro h
    refine ⟨mode.name, ?_, ofName?_eq_some_iff.mpr rfl⟩
    cases h <;> rfl

end AluMode

namespace Config

/-- The names of the fields of a configuration. -/
def fields : List String := ["alu_mode", "max_steps"]

/-- The ways to write a configuration. A limit that there is not may be left out. -/
inductive Written (config : Config) (value : Json) : Prop where
  | full {mode : Json} (written : config.aluMode.Written mode)
      (record : Json.Record fields
        [("alu_mode", mode), ("max_steps", .ofOption (.natural ·.toNat) config.maxSteps)]
        value)
  | unlimited {mode : Json} (unlimited : config.maxSteps = none)
      (written : config.aluMode.Written mode)
      (record : Json.Record fields [("alu_mode", mode)] value)

variable {value mode : Json}

theorem full_iff {limit : Json} :
    Json.Record fields [("alu_mode", mode), ("max_steps", limit)] value ↔
      value.isRecord fields = true ∧ value.member? 0 "alu_mode" = some mode ∧
        value.member? 1 "max_steps" = some limit := by
  rw [Json.record_iff (by decide) (by simp [fields])]
  simp [fields, lookup_cons]

theorem unlimited_iff :
    Json.Record fields [("alu_mode", mode)] value ↔
      value.isRecord fields = true ∧ value.member? 0 "alu_mode" = some mode ∧
        value.member? 1 "max_steps" = none := by
  rw [Json.record_iff (by decide) (by simp [fields])]
  simp [fields, lookup_cons]

theorem ofJson?_eq_some_iff {config : Config} :
    ofJson? value = some config ↔ config.Written value := by
  have hParts : ofJson? value = some config ↔ value.isRecord fields = true ∧
      value.required 0 "alu_mode" AluMode.ofJson? = some config.aluMode ∧
        value.optional 1 "max_steps" wordOfJson? = some config.maxSteps := by
    obtain ⟨mode, limit⟩ := config
    simp [ofJson?, Option.bind_eq_some_iff, fields]
  rw [hParts, Json.required_eq_some_iff,
    Json.optional_eq_some_iff nofun fun _ _ => wordOfJson?_eq_some_iff]
  simp only [AluMode.ofJson?_eq_some_iff]
  constructor
  · rintro ⟨hRecord, ⟨mode, hMode, hWritten⟩, hFull | ⟨hUnlimited, hAbsent⟩⟩
    · exact .full hWritten (full_iff.mpr ⟨hRecord, hMode, hFull⟩)
    · exact .unlimited hUnlimited hWritten (unlimited_iff.mpr ⟨hRecord, hMode, hAbsent⟩)
  · intro hWritten
    cases hWritten with
    | full written record =>
      obtain ⟨hRecord, hMode, hFull⟩ := full_iff.mp record
      exact ⟨hRecord, ⟨_, hMode, written⟩, Or.inl hFull⟩
    | unlimited unlimited written record =>
      obtain ⟨hRecord, hMode, hAbsent⟩ := unlimited_iff.mp record
      exact ⟨hRecord, ⟨_, hMode, written⟩, Or.inr ⟨unlimited, hAbsent⟩⟩

end Config

namespace MachineState

/-- The fields of a state, with a configuration that has been written. -/
def members (state : MachineState) (config : Json) : List (String × Json) := [
  ("registers", state.registers.toJson),
  ("flags", .natural state.flags.toNat),
  ("pc", .natural state.pc.toNat),
  ("sp", .natural state.sp.toNat),
  ("steps", .natural state.steps.toNat),
  ("halted", .bool state.halted),
  ("config", config)]

/-- The ways to write a state. -/
inductive Written (state : MachineState) (value : Json) : Prop where
  | record {config : Json} (written : state.config.Written config)
      (record : Json.Record fields (state.members config) value)

theorem record_iff {state : MachineState} {config value : Json} :
    Json.Record fields (state.members config) value ↔ value.isRecord fields = true ∧
      value.member? 0 "registers" = some state.registers.toJson ∧
      value.member? 1 "flags" = some (.natural state.flags.toNat) ∧
      value.member? 2 "pc" = some (.natural state.pc.toNat) ∧
      value.member? 3 "sp" = some (.natural state.sp.toNat) ∧
      value.member? 4 "steps" = some (.natural state.steps.toNat) ∧
      value.member? 5 "halted" = some (.bool state.halted) ∧
      value.member? 6 "config" = some config := by
  rw [Json.record_iff (by decide) (by simp [members, fields])]
  simp [fields, members, lookup_cons]

theorem ofJson?_eq_some_iff {state : MachineState} {value : Json} :
    ofJson? value = some state ↔ state.Written value := by
  have hParts : ofJson? value = some state ↔ value.isRecord fields = true ∧
      value.required 0 "registers" Registers.ofJson? = some state.registers ∧
      value.required 1 "flags" Json.byte? = some state.flags ∧
      value.required 2 "pc" wordOfJson? = some state.pc ∧
      value.required 3 "sp" Json.byte? = some state.sp ∧
      value.required 4 "steps" wordOfJson? = some state.steps ∧
      value.required 5 "halted" Json.bool? = some state.halted ∧
      value.required 6 "config" Config.ofJson? = some state.config := by
    obtain ⟨registers, flags, pc, sp, steps, halted, config⟩ := state
    simp [ofJson?, Option.bind_eq_some_iff, -Bool.exists_bool]
  simp only [hParts, Json.required_eq_some_iff, Json.byte?_eq_some_iff, Json.bool?_eq_some_iff,
    Registers.ofJson?_eq_some_iff, wordOfJson?_eq_some_iff, Config.ofJson?_eq_some_iff,
    exists_eq_right]
  constructor
  · rintro ⟨hRecord, hRegisters, hFlags, hPc, hSp, hSteps, hHalted, config, hConfig, hWritten⟩
    exact .record hWritten (record_iff.mpr
      ⟨hRecord, hRegisters, hFlags, hPc, hSp, hSteps, hHalted, hConfig⟩)
  · rintro ⟨hWritten, hState⟩
    obtain ⟨hRecord, hRegisters, hFlags, hPc, hSp, hSteps, hHalted, hConfig⟩ := record_iff.mp hState
    exact ⟨hRecord, hRegisters, hFlags, hPc, hSp, hSteps, hHalted, _, hConfig, hWritten⟩

end MachineState

/-! ## Snapshots -/

namespace Snapshot

/-- The fields of a snapshot, with a state that has been written. -/
def members (snapshot : Snapshot) (state : Json) : List (String × Json) := [
  ("id", .string snapshot.id),
  ("machine_id", .string snapshot.machineId),
  ("cpu_state", state),
  ("memory_dump", .ofBytes snapshot.dump),
  ("created_at", snapshot.createdAt.toJson),
  ("size_bytes", .natural snapshot.sizeBytes.toNat)]

/-- The ways to write a snapshot. -/
inductive Written (snapshot : Snapshot) (value : Json) : Prop where
  | record {state : Json} (written : snapshot.state.Written state)
      (record : Json.Record fields (snapshot.members state) value)

theorem record_iff {snapshot : Snapshot} {state value : Json} :
    Json.Record fields (snapshot.members state) value ↔ value.isRecord fields = true ∧
      value.member? 0 "id" = some (.string snapshot.id) ∧
      value.member? 1 "machine_id" = some (.string snapshot.machineId) ∧
      value.member? 2 "cpu_state" = some state ∧
      value.member? 3 "memory_dump" = some (.ofBytes snapshot.dump) ∧
      value.member? 4 "created_at" = some snapshot.createdAt.toJson ∧
      value.member? 5 "size_bytes" = some (.natural snapshot.sizeBytes.toNat) := by
  rw [Json.record_iff (by decide) (by simp [members, fields])]
  simp [fields, members, lookup_cons]

/-- **What is read as a snapshot is what it can be written as.** -/
theorem ofJson?_eq_some_iff {snapshot : Snapshot} {value : Json} :
    ofJson? value = some snapshot ↔ snapshot.Written value := by
  have hParts : ofJson? value = some snapshot ↔ value.isRecord fields = true ∧
      value.required 0 "id" Json.string? = some snapshot.id ∧
      value.required 1 "machine_id" Json.string? = some snapshot.machineId ∧
      value.required 2 "cpu_state" MachineState.ofJson? = some snapshot.state ∧
      value.required 3 "memory_dump" Json.bytes? = some snapshot.dump ∧
      value.required 4 "created_at" Timestamp.ofJson? = some snapshot.createdAt ∧
      value.required 5 "size_bytes" wordOfJson? = some snapshot.sizeBytes := by
    obtain ⟨id, machineId, state, dump, createdAt, sizeBytes⟩ := snapshot
    simp [ofJson?, Option.bind_eq_some_iff]
  simp only [hParts, Json.required_eq_some_iff, Json.string?_eq_some_iff, Json.bytes?_eq_some_iff,
    MachineState.ofJson?_eq_some_iff, Timestamp.ofJson?_eq_some_iff, wordOfJson?_eq_some_iff,
    exists_eq_right]
  constructor
  · rintro ⟨hRecord, hId, hMachineId, ⟨state, hState, hWritten⟩, hDump, hCreatedAt, hSize⟩
    exact .record hWritten (record_iff.mpr
      ⟨hRecord, hId, hMachineId, hState, hDump, hCreatedAt, hSize⟩)
  · rintro ⟨hWritten, hSnapshot⟩
    obtain ⟨hRecord, hId, hMachineId, hState, hDump, hCreatedAt, hSize⟩ := record_iff.mp hSnapshot
    exact ⟨hRecord, hId, hMachineId, ⟨_, hState, hWritten⟩, hDump, hCreatedAt, hSize⟩

/-! ## Snapshots of machines -/

theorem written_toJson (snapshot : Snapshot) : snapshot.Written snapshot.toJson := by
  have hConfig : snapshot.state.config.Written snapshot.state.config.toJson :=
    .full .name (Json.record_object _ _)
  have hState : snapshot.state.Written snapshot.state.toJson :=
    .record hConfig (Json.record_object _ _)
  exact .record hState (Json.record_object _ _)

theorem isPlain_toJson (snapshot : Snapshot) : snapshot.toJson.IsPlain := by
  have hConfig : snapshot.state.config.toJson.IsPlain := by
    refine .object ?_
    simp only [List.forall_mem_cons]
    refine ⟨.string _, ?_, nofun⟩
    cases snapshot.state.config.maxSteps with
    | none => exact .null
    | some limit => exact .natural _
  have hState : snapshot.state.toJson.IsPlain := by
    refine .object ?_
    simp only [List.forall_mem_cons]
    exact ⟨Json.isPlain_ofBytes _, .natural _, .natural _, .natural _, .natural _, .bool _,
      hConfig, nofun⟩
  refine .object ?_
  simp only [List.forall_mem_cons]
  exact ⟨.string _, .string _, hState, Json.isPlain_ofBytes _, .string _, .natural _, nofun⟩

/-- **A snapshot survives being written.** Its text is read as the value that was written, the
values that are read as this snapshot are all the ways to write it, and it restores the machine
that it was taken of. -/
theorem capture_survives (id machineId : String) (createdAt : Timestamp)
    (machine other : Machine) :
    let snapshot := capture id machineId createdAt machine
    snapshot.Written snapshot.toJson ∧
      Json.parse? snapshot.toJson.compact = some snapshot.toJson ∧
      (∀ value, ofJson? value = some snapshot ↔ snapshot.Written value) ∧
      snapshot.restore other = .ok () machine :=
  ⟨written_toJson _, Json.parse?_compact (isPlain_toJson _), fun _ => ofJson?_eq_some_iff,
    restore_capture id machineId createdAt machine other⟩

/-- A machine in the middle of a program, with a limit. -/
def midway : Machine :=
  { Machine.new { aluMode := .corrected, maxSteps := some 7 } with
    memory := Memory.zero.overlay [0x82, 0, 8, 0xa0, 0, 0, 0x47, 0, 1] 0
    registers := ⟨#v[16, 0, 0, 0, 0, 0, 0, 0xf4]⟩
    pc := 6
    steps := 2 }

/-- Its snapshot is read from its text, and from the list of its fields, and leads a new machine to
where it was. -/
theorem capture_survives_midway :
    (Json.parse? (capture "s" "m" .epoch midway).toJson.compact).bind ofJson? =
        some (capture "s" "m" .epoch midway) ∧
      ofJson? (.array (((capture "s" "m" .epoch midway).members
        (capture "s" "m" .epoch midway).state.toJson).map Prod.snd)) =
          some (capture "s" "m" .epoch midway) ∧
      (capture "s" "m" .epoch midway).restore (Machine.new {}) = .ok () midway := by
  obtain ⟨hWritten, hText, hRead, hRestore⟩ :=
    capture_survives "s" "m" .epoch midway (Machine.new {})
  -- Nothing below looks into the snapshot.
  generalize capture "s" "m" .epoch midway = snapshot at *
  refine ⟨?_, (hRead _).mpr ?_, hRestore⟩
  · rw [hText, Option.bind_some]
    exact (hRead _).mpr hWritten
  · exact .record (.record (.full .name (Json.record_object _ _)) (Json.record_object _ _))
      (.list rfl)

end Snapshot

end Ls8
