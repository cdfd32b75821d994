import Ls8.Proofs.Output
import Ls8.Proofs.Run

/-!
# Whole runs and steps of a session

A run of a session prints all its lines and trims them at the end; steps trim after each of them.

* `Follows`: a session that was stepped, beside a rig that nothing was trimmed of.
* `executeFrom_of_proceeds`: they go along together.
* `run_execute_agree`: a run and as many steps as its limit allows come to the same, but for one
  line of the output at most.
-/

namespace Ls8.Session

open Ls8.Action Console
open Rig (Congruence Twin twin_bisimulation)

/-! ## One action of a session -/

/-- The machine of a session with its surroundings. -/
def rig (session : Session) (instruments : Instruments) : Rig :=
  ⟨session.machine, ⟨⟨session.console, none⟩, instruments⟩⟩

variable {α : Type}

theorem perform_eq (session : Session) (instruments : Instruments) (act : Action Fault Rig α) :
    session.perform instruments act = Outcome.ofRig session.createdAt
      (act.result (session.rig instruments)) (act.after (session.rig instruments)) := by
  obtain ⟨machine, createdAt, console⟩ := session
  simp only [perform, rig, result, after]
  cases act ⟨machine, ⟨⟨console, none⟩, instruments⟩⟩ <;> rfl

theorem perform_result (session : Session) (instruments : Instruments)
    (act : Action Fault Rig α) :
    (session.perform instruments act).result = act.result (session.rig instruments) := by
  rw [perform_eq]
  rfl

theorem perform_machine (session : Session) (instruments : Instruments)
    (act : Action Fault Rig α) : (session.perform instruments act).session.machine =
      (act.after (session.rig instruments)).machine := by
  rw [perform_eq]
  rfl

theorem perform_console (session : Session) (instruments : Instruments)
    (act : Action Fault Rig α) : (session.perform instruments act).session.console =
      trim consoleLimit (act.after (session.rig instruments)).console.written := by
  rw [perform_eq]
  rfl

theorem run?_eq (session : Session) (instruments : Instruments) :
    session.run? instruments =
      (Machine.run? (session.rig instruments)).map (.ofResult session.createdAt) := rfl

/-- The outcome of a run is what the machine comes to in the session. -/
theorem exists_of_run? {session : Session} {instruments : Instruments} {ran : Outcome UInt64}
    (h : session.run? instruments = some ran) :
    ∃ ended, Machine.run? (session.rig instruments) = some ended ∧
      ran = .ofResult session.createdAt ended := by
  rw [run?_eq, Option.map_eq_some_iff] at h
  obtain ⟨ended, hRun, rfl⟩ := h
  exact ⟨ended, hRun, rfl⟩

theorem session_ofResult (createdAt : Timestamp) (ended : EStateM.Result Fault Rig UInt64) :
    (Outcome.ofResult createdAt ended).session = ⟨(Rig.left ended).machine, createdAt,
      trim consoleLimit (Rig.left ended).console.written⟩ := by
  cases ended <;> rfl

/-- **Under a limit the run of a session has an outcome.** -/
theorem run?_eq_runWithin {session : Session} {limit : UInt64}
    (hl : session.machine.config.maxSteps = some limit) (instruments : Instruments) :
    session.run? instruments = some (session.runWithin limit instruments) := by
  have hRig : (session.rig instruments).machine.config.maxSteps = some limit := hl
  rw [run?_eq, Rig.run?_eq_runWithin hRig]
  rfl

/-! ## Steps beside steps -/

/-- Hosts with consoles that take everything. -/
def BothEndless (host host' : Host) : Prop := host.console.room = none ∧ host'.console.room = none

theorem bothEndless_congruence : Congruence BothEndless where
  print := by
    rintro ⟨⟨written, room⟩, instruments⟩ ⟨⟨written', room'⟩, instruments'⟩ value ⟨hRoom, hRoom'⟩
    cases hRoom
    cases hRoom'
    exact ⟨rfl, rfl, rfl⟩
  record _ h := h

/-- The session and the rig have the same machine, and both have printed these values. On the
console of the rig they all are, in the session those that were not trimmed. -/
structure Follows (session : Session) (rig : Rig) (values : List UInt8) : Prop where
  machine : session.machine = rig.machine
  room : rig.console.room = none
  written : Holds rig.console.written values
  kept : Holds session.console (held consoleLimit values)

theorem consoleLimit_pos : 0 < consoleLimit := by decide

theorem next_console {rig : Rig} (h : rig.console.room = none) : rig.next.console =
    ⟨append rig.console.written (rig.machine.printed?.toList.flatMap line), none⟩ := by
  apply Machine.step_console
  rw [← h]

/-- What is kept after a step that may have printed a line. -/
theorem held_toList (values : List UInt8) (printed? : Option UInt8) :
    trimmed consoleLimit (held consoleLimit values ++ printed?.toList) =
      held consoleLimit (values ++ printed?.toList) := by
  cases printed? with
  | none =>
    rw [Option.toList_none, List.append_nil, List.append_nil]
    exact trimmed_of_le (width_held consoleLimit_pos values)
  | some value => exact (held_append_singleton consoleLimit values value).symm

/-- **A step of the session is a step of the rig.** -/
theorem Follows.step {session : Session} {rig : Rig} {values : List UInt8}
    (h : Follows session rig values) (instruments : Instruments) :
    (session.step instruments).result = Machine.step.result rig ∧
      Follows (session.step instruments).session rig.next
        (values ++ rig.machine.printed?.toList) := by
  have hTwin : Twin BothEndless rig (session.rig instruments) := ⟨h.machine, h.room, rfl⟩
  have hStep := (twin_bisimulation bothEndless_congruence).step
  have hNext := next_console h.room
  refine ⟨(perform_result session instruments Machine.step).trans (hStep.result_eq hTwin), ?_⟩
  constructor
  · rw [Session.step, perform_machine]
    exact (hStep.after hTwin).machine
  · rw [hNext]
  · rw [hNext]
    exact h.written.append _
  · have hConsole : (session.rig instruments).next.console =
        ⟨append session.console (rig.machine.printed?.toList.flatMap line), none⟩ := by
      rw [next_console rfl, ← h.machine]
      rfl
    rw [← held_toList, Session.step, perform_console]
    apply holds_trim consoleLimit_pos
    rw [← Rig.next, hConsole]
    exact h.kept.append _

/-! ## Several steps -/

section

variable {session : Session} {instruments : Instruments} {executed count : Nat}

theorem executeFrom_of_halted (h : session.machine.halted = true) (executed count : Nat)
    (instruments : Instruments) : executeFrom executed count session instruments =
      { executed, fault := none, session, instruments } := by
  cases count with
  | zero => rfl
  | succ count => rw [executeFrom, if_pos h]

theorem executeFrom_of_ok (h : session.machine.halted = false)
    (hs : (session.step instruments).result = .ok ()) :
    executeFrom executed (count + 1) session instruments = executeFrom (executed + 1) count
      (session.step instruments).session (session.step instruments).instruments := by
  rw [executeFrom, if_neg (by simp [h])]
  generalize session.step instruments = outcome at hs ⊢
  obtain ⟨result, after, counted⟩ := outcome
  cases hs
  rfl

theorem executeFrom_of_error {fault : Fault} (h : session.machine.halted = false)
    (hs : (session.step instruments).result = .error fault) :
    executeFrom executed (count + 1) session instruments =
      ⟨executed, some fault, (session.step instruments).session,
        (session.step instruments).instruments⟩ := by
  rw [executeFrom, if_neg (by simp [h])]
  generalize session.step instruments = outcome at hs ⊢
  obtain ⟨result, after, counted⟩ := outcome
  cases hs
  rfl

end

/-- **Steps of the session go along with those of the rig** as long as these execute instructions. -/
theorem executeFrom_of_proceeds {session : Session} {rig : Rig} {n : Nat}
    (h : Follows session rig []) (hp : rig.Proceeds n) (count : Nat) (instruments : Instruments) :
    ∃ session' instruments', Follows session' (rig.after n) (rig.printed n) ∧
      executeFrom 0 (n + count) session instruments =
        executeFrom n count session' instruments' := by
  induction n generalizing count with
  | zero => exact ⟨session, instruments, h, by rw [Nat.zero_add]⟩
  | succ n ih =>
    obtain ⟨session', instruments', hFollows, hSame⟩ :=
      ih (hp.mono (Nat.le_succ n)) (count + 1)
    obtain ⟨hr, hs⟩ := hp n (Nat.lt_succ_self n)
    obtain ⟨hResult, hNext⟩ := hFollows.step instruments'
    have hOk : (session'.step instruments').result = .ok () := by
      simp only [hResult, result, hs]
    have hRunning : session'.machine.halted = false := by
      rw [hFollows.machine]
      exact hr
    refine ⟨(session'.step instruments').session, (session'.step instruments').instruments, ?_, ?_⟩
    · rw [Rig.after_succ']
      exact hNext
    · rw [Nat.add_right_comm, Nat.add_assoc, hSame, executeFrom_of_ok hRunning hOk]

/-! ## A run beside its steps -/

/-- How the result of a run and the end of as many steps as its limit allows belong together. -/
inductive SameEnd (limit : UInt64) (stepped : Progress) : Except Fault UInt64 → Prop where
  | halted (unfailing : stepped.fault = none) (halted : stepped.session.machine.halted = true) :
      SameEnd limit stepped (.ok (.ofNat stepped.executed))
  | faulted {fault : Fault} (failed : stepped.fault = some fault)
      (own : fault ≠ .stepLimitExceeded limit) : SameEnd limit stepped (.error fault)
  | exhausted (unfailing : stepped.fault = none) (all : stepped.executed = limit.toNat)
      (running : stepped.session.machine.halted = false) :
      SameEnd limit stepped (.error (.stepLimitExceeded limit))

/-- What the steps of a session come to, beside a rig that has run from its first step on. -/
structure Beside (limit start : UInt64) (stepped : Progress) (result : Except Fault UInt64)
    (rig : Rig) : Prop where
  follows : ∃ values, Follows stepped.session rig values
  executed : Grown start rig.machine.steps stepped.executed
  within : stepped.executed ≤ limit.toNat
  ends : SameEnd limit stepped result

theorem Follows.recordProgram {session : Session} {rig : Rig} {values : List UInt8}
    (h : Follows session rig values) : Follows session rig.recordProgram values :=
  ⟨h.machine, h.room, h.written, h.kept⟩

/-- **The steps come to what the run comes to.** -/
theorem execute_beside {session : Session} {rig : Rig} {limit : UInt64}
    (h : Follows session rig []) (hl : rig.machine.config.maxSteps = some limit)
    (instruments : Instruments) :
    Beside limit rig.machine.steps (session.execute limit.toNat instruments)
      ((Machine.runWithin limit).result rig) ((Machine.runWithin limit).after rig) := by
  obtain ⟨ended, hEnds⟩ := Rig.exists_runEnds hl
  have hRun : Machine.runWithin limit rig = ended := Rig.runWithin_eq hl (Rig.run?_of_runEnds hEnds)
  simp only [result, after, hRun]
  clear hRun
  cases hEnds with
  | @halted n allowed halts =>
    obtain ⟨hp, hh⟩ := Rig.haltsAt_iff.mp halts
    have hWithin := allowed limit hl
    obtain ⟨count, hCount⟩ := Nat.exists_eq_add_of_le hWithin
    obtain ⟨session', instruments', hFollows, hSame⟩ :=
      executeFrom_of_proceeds h hp count instruments
    have hHalted : session'.machine.halted = true := hFollows.machine ▸ hh
    rw [execute, hCount, hSame, executeFrom_of_halted hHalted]
    exact ⟨⟨_, hFollows.recordProgram⟩, hp.bookkeeping.1, hWithin, .halted rfl hHalted⟩
  | @faulted k fault allowed faults =>
    obtain ⟨hp, hr, hf⟩ := Rig.faultsAt_iff.mp faults
    have hWithin := allowed limit hl
    obtain ⟨count, hCount⟩ := Nat.exists_eq_add_of_le hWithin
    obtain ⟨session', instruments', hFollows, hSame⟩ :=
      executeFrom_of_proceeds h hp (count + 1) instruments
    obtain ⟨hResult, hNext⟩ := hFollows.step instruments'
    have hRunning : session'.machine.halted = false := hFollows.machine ▸ hr
    have hShift : k + 1 + count = k + (count + 1) := by omega
    rw [execute, hCount, hShift, hSame, executeFrom_of_error hRunning (hResult.trans hf)]
    rw [← Rig.after_succ'] at hNext
    exact ⟨⟨_, hNext⟩, faults.steps, Nat.le_of_lt hWithin, .faulted rfl (Rig.step_ne_limit hf _)⟩
  | @exhausted limit' limited proceeds running =>
    obtain rfl : limit' = limit := by rw [limited] at hl; cases hl; rfl
    obtain ⟨session', instruments', hFollows, hSame⟩ :=
      executeFrom_of_proceeds h proceeds 0 instruments
    rw [execute, ← Nat.add_zero limit'.toNat, hSame]
    exact ⟨⟨_, hFollows⟩, proceeds.bookkeeping.1, le_rfl,
      .exhausted rfl rfl (hFollows.machine ▸ running)⟩

theorem ofImage_ok {source : String} {config : Config} {createdAt : Timestamp}
    {session : Session} (h : ofImage source config createdAt = .ok session) :
    ∃ image machine, Image.parse source = .ok image ∧
      (Machine.new config).load image = .ok machine ∧ session = { machine, createdAt } := by
  unfold ofImage at h
  cases hp : Image.parse source with
  | error error =>
    rw [hp] at h
    cases h
  | ok image =>
    rw [hp] at h
    cases hm : (Machine.new config).load image with
    | error fault =>
      simp only [bind, Except.bind, hm] at h
      cases h
    | ok machine =>
      simp only [bind, Except.bind, hm] at h
      cases h
      exact ⟨image, machine, rfl, hm, rfl⟩

/-! ## A program that fills the output

PRN and a jump back to it print lines of two bytes without end. -/

/-- PRN R0 and JMP R0. -/
def flood : String := "01000111\n00000000\n01010100\n00000000\n"

/-- The memory with the program. -/
def floodMemory : Memory := Memory.zero.overlay [0x47, 0, 0x54, 0] 0

/-- The machine of the program, after some steps. -/
def flooding (maxSteps : Option UInt64) (pc steps : UInt64) : Machine :=
  { Machine.new ⟨.compatible, maxSteps⟩ with memory := floodMemory, pc, steps }

theorem ofImage_flood (maxSteps : Option UInt64) (createdAt : Timestamp) :
    ofImage flood ⟨.compatible, maxSteps⟩ createdAt =
      .ok { machine := flooding maxSteps 0 0, createdAt } := by
  have hImage : Image.parse flood = .ok [0x47, 0, 0x54, 0] := by decide +kernel
  rw [ofImage, hImage]
  rfl

theorem fetch_flooding_print (maxSteps : Option UInt64) (steps : UInt64) :
    (flooding maxSteps 0 steps).fetch = .ok ⟨0x47, 0, 0x54⟩ := by
  have hOpcode : floodMemory.read 0 = .ok 0x47 := by decide +kernel
  have hFirst : floodMemory.read 1 = .ok 0 := by decide +kernel
  have hSecond : floodMemory.read 2 = .ok 0x54 := by decide +kernel
  exact Machine.fetch_eq_ok_iff.mpr ⟨hOpcode, hFirst, hSecond⟩

theorem fetch_flooding_jump (maxSteps : Option UInt64) (steps : UInt64) :
    (flooding maxSteps 2 steps).fetch = .ok ⟨0x54, 0, 0⟩ := by
  have hOpcode : floodMemory.read 2 = .ok 0x54 := by decide +kernel
  have hFirst : floodMemory.read 3 = .ok 0 := by decide +kernel
  have hSecond : floodMemory.read 4 = .ok 0 := by decide +kernel
  exact Machine.fetch_eq_ok_iff.mpr ⟨hOpcode, hFirst, hSecond⟩

/-- The rig has run the program for `n` steps, and is about to go on at `pc`. -/
structure Floods (rig : Rig) (maxSteps : Option UInt64) (pc : UInt64) (n lines : Nat) :
    Prop where
  proceeds : rig.Proceeds n
  machine : (rig.after n).machine = flooding maxSteps pc (.ofNat n)
  room : (rig.after n).console.room = none
  printed : rig.printed n = List.replicate lines 0

section

variable {rig : Rig} {maxSteps : Option UInt64} {pc : UInt64} {n lines : Nat}

theorem Floods.succ (h : Floods rig maxSteps pc n lines) {rig' : Rig}
    (hs : Machine.step (rig.after n) = .ok () rig') {pc' : UInt64} {lines' : Nat}
    (hm : rig'.machine = flooding maxSteps pc' (.ofNat n + 1))
    (hp : rig.printed (n + 1) = List.replicate lines' 0) :
    Floods rig maxSteps pc' (n + 1) lines' := by
  have hAfter : rig.after (n + 1) = rig' := by
    rw [Rig.after_succ']
    exact Rig.next_of_ok hs
  have hCount : UInt64.ofNat n + 1 = .ofNat (n + 1) := (UInt64.ofNat_add n 1).symm
  refine ⟨Rig.proceeds_succ h.proceeds ?_ fun fault hf => ?_, hAfter ▸ hCount ▸ hm, ?_, hp⟩
  · rw [h.machine]
    rfl
  · simp [result, hs] at hf
  · rw [Rig.after_succ', next_console h.room]

theorem Floods.print (h : Floods rig maxSteps 0 n lines) :
    Floods rig maxSteps 2 (n + 1) (lines + 1) := by
  have hFetch : (rig.after n).machine.fetch = .ok ⟨0x47, 0, 0x54⟩ := by
    rw [h.machine]
    exact fetch_flooding_print maxSteps _
  have hr : (rig.after n).machine.halted = false := by
    rw [h.machine]
    rfl
  have hv : (rig.after n).machine.registers.get 0 = .ok 0 := by
    rw [h.machine]
    rfl
  obtain ⟨rig', hs, hm⟩ := Machine.step_of_print hr hFetch rfl hv h.room
  refine h.succ hs ?_ ?_
  · rw [hm, h.machine]
    rfl
  · rw [Rig.printed, h.printed, Machine.printed?_of_print hr hFetch rfl hv]
    exact (List.replicate_succ' ..).symm

theorem Floods.jump (h : Floods rig maxSteps 2 n lines) : Floods rig maxSteps 0 (n + 1) lines := by
  have hFetch : (rig.after n).machine.fetch = .ok ⟨0x54, 0, 0⟩ := by
    rw [h.machine]
    exact fetch_flooding_jump maxSteps _
  have hr : (rig.after n).machine.halted = false := by
    rw [h.machine]
    rfl
  have ht : (rig.after n).machine.registers.get 0 = .ok 0 := by
    rw [h.machine]
    rfl
  obtain ⟨rig', hs, hm⟩ := Machine.step_of_jump hr hFetch rfl ht
  refine h.succ hs ?_ ?_
  · rw [hm, h.machine]
    rfl
  · rw [Rig.printed, h.printed, Machine.printed?_of_other hr hFetch nofun]
    exact List.append_nil _

theorem floods_even (hMachine : rig.machine = flooding maxSteps 0 0)
    (hRoom : rig.console.room = none) (k : Nat) : Floods rig maxSteps 0 (2 * k) k := by
  induction k with
  | zero => exact ⟨rig.proceeds_zero, hMachine, hRoom, rfl⟩
  | succ k ih => exact ih.print.jump

end

/-- The outputs of a run and of steps that print `n + 3` lines, if `n + 1` lines fill the output. -/
theorem outputs_of_flood {n : Nat} {limit : UInt64} {session : Session}
    (hFull : width (List.replicate (n + 1) 0) = consoleLimit)
    (hLimit : limit.toNat = 2 * (n + 2) + 1)
    (hMachine : session.machine = flooding (some limit) 0 0) (hEmpty : session.console = .empty)
    (instruments instruments' : Instruments) :
    ∃ ran, session.run? instruments = some ran ∧ ran.session.output.length = n ∧
      (session.execute limit.toNat instruments').session.output.length = n + 1 := by
  have hFollows : Follows session (session.rig instruments) [] := by
    refine ⟨rfl, rfl, ?_, ?_⟩
    · show Holds session.console []
      rw [hEmpty]
      exact holds_empty
    · rw [hEmpty]
      exact holds_empty
  have hFloods : Floods (session.rig instruments) (some limit) 2 limit.toNat (n + 3) := by
    rw [hLimit]
    exact (floods_even hMachine rfl (n + 2)).print
  have hMax : session.machine.config.maxSteps = some limit := by
    rw [hMachine]
    rfl
  have hMaxRig : (session.rig instruments).machine.config.maxSteps = some limit := hMax
  obtain ⟨hHeld, hTrimmed⟩ := held_replicate hFull
  obtain ⟨session', instruments'', hLast, hSame⟩ :=
    executeFrom_of_proceeds hFollows hFloods.proceeds 0 instruments'
  refine ⟨_, run?_eq_runWithin hMax instruments, ?_, ?_⟩
  · have hRunning : ((session.rig instruments).after limit.toNat).machine.halted = false := by
      rw [hFloods.machine]
      rfl
    have hRun : Machine.runWithin limit (session.rig instruments) =
        .error (.stepLimitExceeded limit) ((session.rig instruments).after limit.toNat) :=
      Rig.runWithin_eq hMaxRig (Rig.run?_of_exhausted hMaxRig hFloods.proceeds hRunning)
    have hKept : Holds (session.runWithin limit instruments).session.console
        (List.replicate n 0) := by
      rw [← hTrimmed, ← hFloods.printed, Session.runWithin, perform_console, after_of_error hRun]
      exact holds_trim consoleLimit_pos hLast.written
    rw [output_of_holds hKept, List.length_map, List.length_replicate]
  · rw [execute, ← Nat.add_zero limit.toNat, hSame]
    have hKept := hLast.kept
    rw [hFloods.printed, hHeld] at hKept
    show session'.output.length = n + 1
    rw [output_of_holds hKept, List.length_map, List.length_replicate]

/-! ## What a client sees -/

/-- What a run that printed a text, and as many steps as its limit allows, have in common. -/
structure Agree (limit : UInt64) (printed : ByteArray) (ran : Outcome UInt64)
    (stepped : Progress) : Prop where
  machine : ran.session.machine = stepped.session.machine
  executed : stepped.executed = ran.session.machine.steps.toNat
  halted (count : UInt64) : ran.result = .ok count ↔
    stepped.fault = none ∧ stepped.session.machine.halted = true ∧ stepped.executed = count.toNat
  faulted (fault : Fault) : stepped.fault = some fault ↔
    ran.result = .error fault ∧ fault ≠ .stepLimitExceeded limit
  /-- At the limit a run fails, while steps just end. -/
  exhausted : ran.result = .error (.stepLimitExceeded limit) ↔
    stepped.fault = none ∧ stepped.executed = limit.toNat ∧
      stepped.session.machine.halted = false
  /-- The outputs differ exactly if something was trimmed and the steps left the output full. -/
  output : ran.session.output = stepped.session.output ↔
    printed.size ≤ consoleLimit ∨ stepped.session.console.size ≠ consoleLimit
  /-- They differ in the first line only. -/
  output_tail : ran.session.output ≠ stepped.session.output →
    ran.session.output = stepped.session.output.tail

section

variable {limit : UInt64} {stepped : Progress} {result : Except Fault UInt64}

theorem SameEnd.halted_iff (h : SameEnd limit stepped result)
    (hWithin : stepped.executed ≤ limit.toNat) (count : UInt64) : result = .ok count ↔
      stepped.fault = none ∧ stepped.session.machine.halted = true ∧
        stepped.executed = count.toNat := by
  cases h with
  | halted unfailing halted =>
    have hWord := toNat_ofNat_of_le hWithin
    simp [unfailing, halted, ← UInt64.toNat_inj, hWord]
  | faulted failed own => simp [failed]
  | exhausted unfailing all running => simp [running]

theorem SameEnd.faulted_iff (h : SameEnd limit stepped result) (fault : Fault) :
    stepped.fault = some fault ↔ result = .error fault ∧ fault ≠ .stepLimitExceeded limit := by
  cases h with
  | halted unfailing halted => simp [unfailing]
  | faulted failed own =>
    rw [failed]
    constructor
    · rintro ⟨⟩
      exact ⟨rfl, own⟩
    · rintro ⟨⟨⟩, -⟩
      rfl
  | exhausted unfailing all running => simp [unfailing, eq_comm]

theorem SameEnd.exhausted_iff (h : SameEnd limit stepped result) :
    result = .error (.stepLimitExceeded limit) ↔ stepped.fault = none ∧
      stepped.executed = limit.toNat ∧ stepped.session.machine.halted = false := by
  cases h with
  | halted unfailing halted => simp [halted]
  | faulted failed own => simp [failed, own]
  | exhausted unfailing all running => simp [unfailing, all, running]

end

/-- Of two outputs, one trimmed at the end and one after every line. -/
theorem output_eq_iff {ran stepped : Session} {values : List UInt8}
    (hRan : Holds ran.console (trimmed consoleLimit values))
    (hStepped : Holds stepped.console (held consoleLimit values)) :
    (ran.output = stepped.output ↔
      width values ≤ consoleLimit ∨ stepped.console.size ≠ consoleLimit) ∧
      (ran.output ≠ stepped.output → ran.output = stepped.output.tail) := by
  rw [output_of_holds hRan, output_of_holds hStepped, hStepped.size,
    ← held_eq_trimmed_iff consoleLimit_pos]
  rcases held_eq consoleLimit_pos values with hSame | ⟨-, -, value, hMore⟩
  · rw [hSame]
    exact ⟨⟨fun _ => rfl, fun _ => rfl⟩, fun h => (h rfl).elim⟩
  · rw [hMore]
    refine ⟨⟨fun h => ?_, fun h => ?_⟩, fun _ => rfl⟩
    · have hLength := congrArg List.length h
      simp at hLength
    · have hLength := congrArg List.length h
      simp at hLength

theorem Beside.agree {session : Session} {instruments : Instruments} {limit : UInt64}
    {stepped : Progress} (h : Beside limit 0 stepped
      ((Machine.runWithin limit).result (session.rig instruments))
      ((Machine.runWithin limit).after (session.rig instruments))) :
    Agree limit ((Machine.runWithin limit).after (session.rig instruments)).console.written
      (session.runWithin limit instruments) stepped := by
  obtain ⟨⟨values, hFollows⟩, hExecuted, hWithin, hEnd⟩ := h
  rw [← perform_machine] at hExecuted
  rw [← perform_result] at hEnd
  have hRan : Holds (session.runWithin limit instruments).session.console
      (trimmed consoleLimit values) := by
    rw [Session.runWithin, perform_console]
    exact holds_trim consoleLimit_pos hFollows.written
  obtain ⟨hOutput, hTail⟩ := output_eq_iff hRan hFollows.kept
  constructor
  · rw [Session.runWithin, perform_machine, hFollows.machine]
  · exact (hExecuted.toNat_of_zero (Nat.lt_of_le_of_lt hWithin limit.toNat_lt)).symm
  · exact hEnd.halted_iff hWithin
  · exact hEnd.faulted_iff
  · exact hEnd.exhausted_iff
  · rw [hFollows.written.size]
    exact hOutput
  · exact hTail

theorem load_ok {machine machine' : Machine} {image : List UInt8}
    (h : machine.load image = .ok machine') :
    machine'.config = machine.config ∧ machine'.steps = machine.steps := by
  unfold Machine.load at h
  cases hm : machine.memory.load image 0 with
  | error fault => simp [hm] at h
  | ok memory =>
    simp only [hm] at h
    cases h
    exact ⟨rfl, rfl⟩

/-- **A run and its steps.** Take two sessions with the same image and a limit, run one and let the
other execute as many steps as the limit allows. The run has an outcome. Machines, counts and faults
are the same, and so are the outputs unless the steps have trimmed theirs to exactly the size that
may be kept: then the run has trimmed one line more. -/
theorem run_execute_agree {source : String} {mode : AluMode} {limit : UInt64}
    {created created' : Timestamp} {session session' : Session}
    (h : ofImage source ⟨mode, some limit⟩ created = .ok session)
    (h' : ofImage source ⟨mode, some limit⟩ created' = .ok session')
    (instruments instruments' : Instruments) :
    session.run? instruments = some (session.runWithin limit instruments) ∧
      Agree limit ((Machine.runWithin limit).after (session.rig instruments)).console.written
        (session.runWithin limit instruments) (session'.execute limit.toNat instruments') := by
  obtain ⟨image, machine, hImage, hLoad, rfl⟩ := ofImage_ok h
  obtain ⟨image', machine', hImage', hLoad', rfl⟩ := ofImage_ok h'
  cases hImage.symm.trans hImage'
  cases hLoad.symm.trans hLoad'
  obtain ⟨hConfig, hFresh⟩ := load_ok hLoad
  have hLimit : machine.config.maxSteps = some limit := by
    rw [hConfig]
    rfl
  have hFollows : Follows { machine, createdAt := created' }
      (rig { machine, createdAt := created } instruments) [] := ⟨rfl, rfl, holds_empty, holds_empty⟩
  have hBeside := execute_beside hFollows hLimit instruments'
  have hSteps : (rig { machine, createdAt := created } instruments).machine.steps = 0 := hFresh
  rw [hSteps] at hBeside
  exact ⟨run?_eq_runWithin hLimit instruments, hBeside.agree⟩

theorem run_execute_agree_flood : ∃ session,
    ofImage flood ⟨.compatible, some 65539⟩ .epoch = .ok session ∧
      session.run? {} = some (session.runWithin 65539 {}) ∧
      Agree 65539 ((Machine.runWithin 65539).after (session.rig {})).console.written
        (session.runWithin 65539 {}) (session.execute (65539 : UInt64).toNat {}) := by
  have hImage := ofImage_flood (some 65539) .epoch
  exact ⟨_, hImage, run_execute_agree hImage hImage {} {}⟩

/-- **The outputs differ.** Of what the program prints in 65539 steps a run keeps 32767 lines, and
single steps keep 32768. -/
theorem outputs_differ : ∃ session ran,
    ofImage flood ⟨.compatible, some 65539⟩ .epoch = .ok session ∧
      session.run? {} = some ran ∧ ran.session.output.length = 32767 ∧
      (session.execute 65539 {}).session.output.length = 32768 := by
  have hLine : (line 0).length = 2 := by decide
  have hFull : width (List.replicate (32767 + 1) 0) = consoleLimit := by
    rw [width_replicate, hLine]
    rfl
  have hLimit : (65539 : UInt64).toNat = 2 * (32767 + 2) + 1 := by decide
  have hCount : 65539 = (65539 : UInt64).toNat := by decide
  have hSucc : 32768 = 32767 + 1 := rfl
  rw [hCount]
  -- Nothing below computes with the numbers.
  generalize (65539 : UInt64) = limit, 32767 = n at hFull hLimit hSucc ⊢
  obtain ⟨session, hSession⟩ : ∃ session : Session,
      session = { machine := flooding (some limit) 0 0, createdAt := .epoch } := ⟨_, rfl⟩
  have hMachine : session.machine = flooding (some limit) 0 0 := by rw [hSession]
  have hEmpty : session.console = .empty := by rw [hSession]
  obtain ⟨ran, hRan, hLines⟩ := outputs_of_flood hFull hLimit hMachine hEmpty {} {}
  rw [hSucc, ofImage_flood, ← hSession]
  exact ⟨session, ran, rfl, hRan, hLines⟩

end Ls8.Session
