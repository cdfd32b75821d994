import Ls8.Proofs.Control
import Ls8.Proofs.Grouping
import Ls8.Proofs.Snapshot

/-!
# Well-formed machines

What the program counter of a machine can be, whatever program runs on it and however the program
changes itself.

* `Machine.WellFormed`: the program counter is past the last cell by no more than one, and a machine
  that has halted shows why.
* `WellFormed.next`: a step keeps a machine well formed. `WellFormed.executeFrom`,
  `wellFormed_of_run?`: so do several of them.
* `Course`: what can be done with a session and the snapshots taken of it.
* `sound_of_course`: what always holds along a course.
-/

namespace Ls8

namespace Machine

/-- The program counter names a cell or the end of memory, and in a machine that has halted it
stands behind an HLT, or at a byte that is no opcode. -/
structure WellFormed (machine : Machine) : Prop where
  pc_le : machine.pc.toNat ≤ 256
  halted : machine.halted = true →
    (1 ≤ machine.pc.toNat ∧ machine.pc.toNat ≤ 254 ∧
      machine.memory.read (machine.pc.toNat - 1) = .ok (Opcode.control .halt).byte) ∨
    (machine.pc.toNat ≤ 253 ∧ ∃ byte, machine.memory.read machine.pc.toNat = .ok byte ∧
      byte ∉ Opcode.all.map Opcode.byte)

theorem wellFormed_of_running {machine : Machine} (hr : machine.halted = false)
    (h : machine.pc.toNat ≤ 256) : WellFormed machine where
  pc_le := h
  halted hh := by
    rw [hr] at hh
    cases hh

/-- A new machine stands at its first cell. -/
theorem wellFormed_of_load {config : Config} {image : List UInt8} {machine : Machine}
    (h : (new config).load image = .ok machine) : WellFormed machine := by
  unfold load at h
  split at h
  · cases h
    exact wellFormed_of_running rfl (Nat.zero_le _)
  · cases h

/-- An HLT halts the machine behind itself, and all others leave it running. -/
theorem Executes.wellFormed {machine machine' : Machine} {fetched : Fetched} {opcode : Opcode}
    (h : Executes machine opcode fetched.a machine') (hf : machine.fetch = .ok fetched)
    (hd : Opcode.decode fetched.opcode = some opcode) : WellFormed machine' := by
  have hStart := fetch_pc hf
  obtain ⟨hLeads, hHalted, hMemory⟩ := h
  by_cases hHalt : opcode = .control .halt
  · subst hHalt
    obtain ⟨hCell, -, -⟩ := fetch_eq_ok_iff.mp hf
    rw [Opcode.eq_byte_of_decode hd] at hCell
    have hNext : machine'.pc.toNat = machine.pc.toNat + 1 := by
      generalize machine'.pc = pc at hLeads
      cases hLeads with
      | halt => exact (grown_add machine.pc 1).exactly (by omega)
      | jump taken => cases taken
      | pass untaken => cases untaken
    refine ⟨hLeads.le hStart, fun _ => Or.inl ⟨by omega, by omega, ?_⟩⟩
    rw [hNext, hMemory rfl, Nat.add_sub_cancel]
    exact hCell
  · have hRunning : machine'.halted = false := by
      cases hh : machine'.halted with
      | false => rfl
      | true => exact (hHalt (hHalted.mp hh)).elim
    exact wellFormed_of_running hRunning (hLeads.le hStart)

open Ls8.Action Rig

variable {rig : Rig}

/-- **A step keeps the machine well formed.** One that fails has changed nothing, or has found a
byte that is no opcode. -/
theorem WellFormed.next (h : rig.machine.WellFormed) : rig.next.machine.WellFormed := by
  cases hr : rig.machine.halted with
  | true =>
    rw [next_of_ok (step_of_halted hr)]
    exact h
  | false =>
    cases hs : step rig with
    | ok _ rig' =>
      obtain ⟨fetched, opcode, hf, hd, hExecutes⟩ := step_executes hr hs
      rw [next_of_ok hs]
      exact hExecutes.wellFormed hf hd
    | error fault rig' =>
      rw [Rig.next, after_of_error hs]
      obtain ⟨-, -, ⟨-, hSame⟩ | ⟨fetched, hf, hd, -, hHalted, -⟩⟩ := step_error hs
      · rw [hSame]
        exact h
      · rw [hHalted]
        obtain ⟨hCell, -, -⟩ := fetch_eq_ok_iff.mp hf
        exact ⟨h.pc_le, fun _ => Or.inr ⟨fetch_pc hf, _, hCell, decode_eq_none_iff.mp hd⟩⟩

theorem WellFormed.after (h : rig.machine.WellFormed) (n : Nat) :
    (rig.after n).machine.WellFormed := by
  induction n with
  | zero => exact h
  | succ n ih =>
    rw [after_succ']
    exact ih.next

theorem WellFormed.run (h : rig.machine.WellFormed) {ended : EStateM.Result Fault Rig UInt64}
    (ends : run? rig = some ended) : (left ended).machine.WellFormed := by
  cases run?_eq_some_iff.mp ends with
  | halted => exact h.after _
  | faulted => exact h.after _
  | exhausted => exact h.after _

theorem WellFormed.step_address (h : rig.machine.WellFormed) {address : Nat}
    (hf : step.result rig = .error (.addressOutOfRange address)) : address = 256 := by
  rw [Machine.step_address hf]
  exact Nat.max_eq_right h.pc_le

/-- A run reports what one of its steps has met. -/
theorem WellFormed.run_address (h : rig.machine.WellFormed) {address : Nat} {rig' : Rig}
    (ends : run? rig = some (.error (.addressOutOfRange address) rig')) : address = 256 := by
  rcases run?_eq_error_iff.mp ends with ⟨k, -, hFaults, -⟩ | ⟨_, -, hLimit, -⟩
  · exact (h.after k).step_address hFaults.fails
  · cases hLimit

end Machine

namespace Session

open Ls8.Action Machine

variable {session : Session}

/-! ## Operations of a session -/

theorem wellFormed_of_step (h : session.machine.WellFormed) (instruments : Instruments) :
    (session.step instruments).session.machine.WellFormed := by
  rw [step_session]
  have hAlone : session.machine.alone.machine.WellFormed := h
  exact hAlone.next

theorem step_address_of_wellFormed (h : session.machine.WellFormed) {instruments : Instruments}
    {address : Nat} (hf : (session.step instruments).result = .error (.addressOutOfRange address)) :
    address = 256 := by
  rw [step_result] at hf
  have hAlone : session.machine.alone.machine.WellFormed := h
  exact hAlone.step_address hf

theorem wellFormed_of_run? (h : session.machine.WellFormed) {instruments : Instruments}
    {ran : Outcome UInt64} (ends : session.run? instruments = some ran) :
    ran.session.machine.WellFormed := by
  have hRig : (session.rig instruments).machine.WellFormed := h
  obtain ⟨ended, hRun, rfl⟩ := exists_of_run? ends
  rw [session_ofResult]
  exact hRig.run hRun

theorem run_address_of_wellFormed (h : session.machine.WellFormed) {instruments : Instruments}
    {ran : Outcome UInt64} (ends : session.run? instruments = some ran) {address : Nat}
    (hf : ran.result = .error (.addressOutOfRange address)) : address = 256 := by
  have hRig : (session.rig instruments).machine.WellFormed := h
  obtain ⟨ended, hRun, rfl⟩ := exists_of_run? ends
  cases ended with
  | ok count rig' => cases hf
  | error fault rig' =>
    cases hf
    exact hRig.run_address hRun

/-- Of several steps each begins with a well-formed machine. -/
theorem executeFrom_wellFormed (h : session.machine.WellFormed) (executed count : Nat)
    (instruments : Instruments) :
    (executeFrom executed count session instruments).session.machine.WellFormed ∧
      ∀ address, (executeFrom executed count session instruments).fault =
        some (.addressOutOfRange address) → address = 256 := by
  obtain ⟨hKept, hFault⟩ := executeFrom_keeps
    (P := fun session => session.machine.WellFormed)
    (fun _ instruments h => wellFormed_of_step h instruments) h executed count instruments
  refine ⟨hKept, fun address fails => ?_⟩
  obtain ⟨last, instruments', hLast, hFails, -⟩ := hFault _ fails
  exact step_address_of_wellFormed hLast hFails

/-! ## Output that fits -/

theorem size_perform_le {α : Type} (session : Session) (instruments : Instruments)
    (act : Action Fault Rig α) :
    (session.perform instruments act).session.console.size ≤ consoleLimit := by
  rw [perform_console]
  exact size_trim_le _ _

theorem size_run?_le {instruments : Instruments} {ran : Outcome UInt64}
    (ends : session.run? instruments = some ran) : ran.session.console.size ≤ consoleLimit := by
  obtain ⟨ended, -, rfl⟩ := exists_of_run? ends
  rw [session_ofResult]
  exact size_trim_le _ _

theorem size_executeFrom_le (h : session.console.size ≤ consoleLimit) (executed count : Nat)
    (instruments : Instruments) :
    (executeFrom executed count session instruments).session.console.size ≤ consoleLimit :=
  (executeFrom_keeps (P := fun session => session.console.size ≤ consoleLimit)
    (fun session instruments _ => size_perform_le session instruments Machine.step) h
    executed count instruments).1

/-- A machine that has halted does nothing any more, and its output is not trimmed again. -/
theorem rests_of_halted (hh : session.machine.halted = true)
    (hFits : session.console.size ≤ consoleLimit) (instruments : Instruments) (count : Nat) :
    (session.step instruments).session = session ∧
      (∃ ran, session.run? instruments = some ran ∧ ran.session = session) ∧
      (session.execute count instruments).session = session := by
  have hHalted : (session.rig instruments).machine.halted = true := hh
  have hStep : Machine.step.after (session.rig instruments) = session.rig instruments :=
    after_of_ok (step_of_halted hHalted)
  have hEnds : Machine.run? (session.rig instruments) =
      some (.ok 0 (session.rig instruments).recordProgram) :=
    Rig.run?_of_haltsAt (fun _ _ => Nat.zero_le _)
      (Rig.haltsAt_iff.mpr ⟨Rig.proceeds_zero _, hHalted⟩)
  have hKept : (⟨session.machine, session.createdAt, trim consoleLimit session.console⟩ : Session) =
      session := by rw [trim_of_le hFits]
  refine ⟨?_, ⟨_, by rw [run?_eq, hEnds, Option.map_some], ?_⟩, ?_⟩
  · rw [Session.step, perform_session, hStep]
    exact hKept
  · rw [session_ofResult]
    exact hKept
  · rw [execute, executeFrom_of_halted hh]

/-! ## Courses -/

/-- What becomes of a session in the course of operations on it, and the snapshots taken of it on
the way. Runs are those that come to an end. -/
inductive Course (first : Session) : List Snapshot → Session → Prop where
  | start : Course first [] first
  | step {taken : List Snapshot} {session : Session} (before : Course first taken session)
      (instruments : Instruments) : Course first taken (session.step instruments).session
  | run {taken : List Snapshot} {session : Session} (before : Course first taken session)
      (instruments : Instruments) {ran : Outcome UInt64}
      (ends : session.run? instruments = some ran) : Course first taken ran.session
  | execute {taken : List Snapshot} {session : Session} (before : Course first taken session)
      (count : Nat) (instruments : Instruments) :
      Course first taken (session.execute count instruments).session
  | capture {taken : List Snapshot} {session : Session} (before : Course first taken session)
      (id machineId : String) (createdAt : Timestamp) :
      Course first (.capture id machineId createdAt session.machine :: taken) session
  | restore {taken : List Snapshot} {session : Session} (before : Course first taken session)
      {snapshot : Snapshot} (known : snapshot ∈ taken) :
      Course first taken ((restore snapshot).after session)

/-- What every operation keeps of a session and the snapshots taken of it. -/
structure Upright (taken : List Snapshot) (session : Session) : Prop where
  wellFormed : session.machine.WellFormed
  fits : session.console.size ≤ consoleLimit
  taken : ∀ snapshot ∈ taken, ∃ id machineId createdAt machine,
    snapshot = .capture id machineId createdAt machine ∧ machine.WellFormed

theorem restore_after_capture (id machineId : String) (createdAt : Timestamp) (machine : Machine)
    (session : Session) :
    (restore (.capture id machineId createdAt machine)).after session =
      { session with machine } := by
  have hRestored := Snapshot.restore_capture id machineId createdAt machine session.machine
  obtain ⟨before, created, console⟩ := session
  simp only [after, restore, hRestored]

theorem Course.upright {first : Session} (hFirst : Upright [] first) {taken : List Snapshot}
    (h : Course first taken session) : Upright taken session := by
  induction h with
  | start => exact hFirst
  | step _ instruments ih =>
    exact ⟨wellFormed_of_step ih.wellFormed instruments, size_perform_le _ _ _, ih.taken⟩
  | run _ instruments ends ih =>
    exact ⟨wellFormed_of_run? ih.wellFormed ends, size_run?_le ends, ih.taken⟩
  | execute _ count instruments ih =>
    exact ⟨(executeFrom_wellFormed ih.wellFormed 0 count instruments).1,
      size_executeFrom_le ih.fits 0 count instruments, ih.taken⟩
  | capture _ id machineId createdAt ih =>
    refine ⟨ih.wellFormed, ih.fits, fun snapshot hTaken => ?_⟩
    rcases List.mem_cons.mp hTaken with rfl | hBefore
    · exact ⟨id, machineId, createdAt, _, rfl, ih.wellFormed⟩
    · exact ih.taken snapshot hBefore
  | restore _ known ih =>
    obtain ⟨id, machineId, createdAt, machine, rfl, hMachine⟩ := ih.taken _ known
    rw [restore_after_capture]
    exact ⟨hMachine, ih.fits, ih.taken⟩

theorem upright_of_ofImage {source : String} {config : Config} {createdAt : Timestamp}
    {first : Session} (h : ofImage source config createdAt = .ok first) : Upright [] first := by
  obtain ⟨image, machine, -, hLoad, rfl⟩ := ofImage_ok h
  exact ⟨wellFormed_of_load hLoad, Nat.zero_le _, nofun⟩

/-- What holds of a session whose machine is well formed, and of all that the machine is about to
do. -/
structure Sound (session : Session) : Prop where
  /-- The machine, now and after any number of steps. -/
  wellFormed (instruments : Instruments) (n : Nat) :
    ((session.rig instruments).after n).machine.WellFormed
  /-- The addresses of a fetch are numbers of 64 bits. -/
  fetches (instruments : Instruments) (n : Nat) :
    ((session.rig instruments).after n).machine.pc.toNat + 2 < UInt64.size
  step_address {instruments : Instruments} {address : Nat}
    (fails : (session.step instruments).result = .error (.addressOutOfRange address)) :
    address = 256
  run_address {instruments : Instruments} {ran : Outcome UInt64} {address : Nat}
    (ends : session.run? instruments = some ran)
    (fails : ran.result = .error (.addressOutOfRange address)) : address = 256
  execute_address {count : Nat} {instruments : Instruments} {address : Nat}
    (fails : (session.execute count instruments).fault = some (.addressOutOfRange address)) :
    address = 256
  /-- Whatever a step executes is one instruction, which leads where its opcode says. -/
  leads {instruments : Instruments} {n : Nat} {rig : Rig}
    (running : ((session.rig instruments).after n).machine.halted = false)
    (executes : Machine.step ((session.rig instruments).after n) = .ok () rig) :
    ∃ fetched opcode, ((session.rig instruments).after n).machine.fetch = .ok fetched ∧
      Opcode.decode fetched.opcode = some opcode ∧
      Leads ((session.rig instruments).after n).machine fetched.a opcode rig.machine.pc
  rests (halted : session.machine.halted = true) (instruments : Instruments) (count : Nat) :
    (session.step instruments).session = session ∧
      (∃ ran, session.run? instruments = some ran ∧ ran.session = session) ∧
      (session.execute count instruments).session = session

theorem Upright.sound {taken : List Snapshot} (h : Upright taken session) : Sound session := by
  have hRig (instruments : Instruments) : (session.rig instruments).machine.WellFormed :=
    h.wellFormed
  constructor
  · intro instruments n
    exact (hRig instruments).after n
  · intro instruments n
    have hLast := Nat.add_le_add_right ((hRig instruments).after n).pc_le 2
    exact hLast.trans_lt (by decide)
  · intro instruments address fails
    exact step_address_of_wellFormed h.wellFormed fails
  · intro instruments ran address ends fails
    exact run_address_of_wellFormed h.wellFormed ends fails
  · intro count instruments address fails
    exact (executeFrom_wellFormed h.wellFormed 0 count instruments).2 address fails
  · intro instruments n rig running executes
    obtain ⟨fetched, opcode, hFetch, hDecode, hExecutes⟩ := step_executes running executes
    exact ⟨fetched, opcode, hFetch, hDecode, hExecutes.leads⟩
  · intro halted
    exact rests_of_halted halted h.fits

/-- **Machines stay well formed.** Whatever is done with a session made from an image, and with
the snapshots taken of it: its program counter is at most 256, so that all it can miss is the cell
at 256 itself; once it has halted it stands behind an HLT, or at a byte that is no opcode, and
nothing changes it any more; and every instruction that it executes leads to the next one or to
the address that a jump names. -/
theorem sound_of_course {source : String} {config : Config} {createdAt : Timestamp}
    {first session : Session} {taken : List Snapshot}
    (hFirst : ofImage source config createdAt = .ok first) (h : Course first taken session) :
    Sound session :=
  (h.upright (upright_of_ofImage hFirst)).sound

/-- A session that has gone on from a snapshot and come back to it. -/
theorem sound_of_course_flood : ∃ first taken session,
    ofImage flood ⟨.compatible, some 65539⟩ .epoch = .ok first ∧ Course first taken session ∧
      Sound session := by
  have hFirst := ofImage_flood (some 65539) .epoch
  have hCourse (first : Session) :=
    ((((@Course.start first).execute 3 {}).capture "" "" .epoch).step {}).restore
      (List.mem_cons_self ..)
  exact ⟨_, _, _, hFirst, hCourse _, sound_of_course hFirst (hCourse _)⟩

end Session

end Ls8
