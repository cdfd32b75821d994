import Ls8.Proofs.Calls

/-!
# The two modes of the arithmetic unit

Machines that differ in nothing but their mode go on like one machine, until they come to an
instruction that means something else in the other mode.

* `AluOp.dependsOnMode`: the seven operations that do; `dependsOnMode_iff` says that there are no
  more and no fewer.
* `Machine.attempted?`, `Rig.RunAttempts`: the instruction that the next step attempts, and those
  that a run attempts.
* `execute_modes`, `step_modes`: one instruction, and one step.
* `after_modes`, `run?_modes`: steps in a row, and a whole run.
* `modes_agree`: all of this in one statement.
-/

namespace Ls8

/-- The operations that mean something else in the other mode. -/
def AluOp.dependsOnMode : AluOp → Bool
  | .sub | .and | .or | .xor | .not | .shl | .shr => true
  | .add | .mul | .push | .pop | .cmp => false

def Opcode.dependsOnMode : Opcode → Bool
  | .control _ => false
  | .alu op => op.dependsOnMode

namespace Machine

open Ls8.Action Rig

variable {α : Type}

def withMode (mode : AluMode) (machine : Machine) : Machine :=
  { machine with config := { machine.config with aluMode := mode } }

/-- The machines differ in nothing but the mode of their arithmetic unit. -/
def SameButMode (machine machine' : Machine) : Prop := ∃ mode, machine' = machine.withMode mode

/-- The instruction that the next step attempts: none if the machine has halted, and none if its
bytes cannot be fetched or are no instruction. -/
def attempted? (machine : Machine) : Option Opcode :=
  if machine.halted then none
  else
    match machine.fetch with
    | .ok fetched => Opcode.decode fetched.opcode
    | .error _ => none

theorem attempted?_of_fetched {machine : Machine} {fetched : Fetched}
    (h : machine.halted = false) (hf : machine.fetch = .ok fetched) :
    machine.attempted? = Opcode.decode fetched.opcode := by
  simp [attempted?, h, hf]

/-! ## Operations that are the same in both modes -/

theorem look_modes {read : Machine → Except Fault α}
    (h : ∀ machine mode, read (machine.withMode mode) = read machine) :
    Respects SameButMode (look read) := by
  apply respects_look
  rintro machine _ ⟨mode, rfl⟩
  exact h machine mode

theorem modify_modes {f : Machine → Machine}
    (h : ∀ machine mode, f (machine.withMode mode) = (f machine).withMode mode) :
    Respects SameButMode (modify f : Action Fault Machine Unit) := by
  apply respects_modify
  rintro machine _ ⟨mode, rfl⟩
  exact ⟨mode, h machine mode⟩

theorem get_bind_modes {f : Machine → Action Fault Machine α}
    (hf : ∀ machine, Respects SameButMode (f machine))
    (h : ∀ machine mode, f (machine.withMode mode) = f machine) :
    Respects SameButMode (get >>= f) := by
  apply respects_get_bind hf
  rintro machine _ ⟨mode, rfl⟩
  exact h machine mode

theorem register_modes (index : Nat) : Respects SameButMode (register index) :=
  look_modes fun _ _ => rfl

theorem setRegister_modes (index : Nat) (value : UInt8) :
    Respects SameButMode (setRegister index value) := by
  refine respects_bind (look_modes fun _ _ => rfl) fun registers => ?_
  exact modify_modes fun _ _ => rfl

theorem advance_modes (length : UInt64) : Respects SameButMode (advance length) :=
  modify_modes fun _ _ => rfl

/-- Such an operation needs the same registers in both modes, and makes the same of them. -/
theorem alu_modes {op : AluOp} (h : op.dependsOnMode = false) (a b : UInt8) :
    Respects SameButMode (alu op a b) := by
  rintro machine _ ⟨mode, rfl⟩
  rw [alu_eq, alu_eq]
  cases op with
  | add | mul | push | pop | cmp => exact ending_matches ⟨mode, rfl⟩ ⟨mode, rfl⟩ _
  | sub | and | or | xor | not | shl | shr => cases h

/-- A machine whose registers show the mode after every operation that depends on it. -/
def telling : Machine := boot ⟨#v[6, 2, 0, 0, 0, 0, 0, 0]⟩ {}

/-- **The seven operations are those that depend on the mode**, and each of the seven does. -/
theorem dependsOnMode_iff (op : AluOp) :
    op.dependsOnMode = true ↔ ∃ a b, ¬Respects SameButMode (alu op a b) := by
  constructor
  · intro h
    refine ⟨0, 1, fun hr => ?_⟩
    have hRegisters : ((alu op 0 1).after (telling.withMode .corrected)).registers =
        ((alu op 0 1).after telling).registers := by
      have hSame : SameButMode telling (telling.withMode .corrected) := ⟨.corrected, rfl⟩
      obtain ⟨mode, hm⟩ := hr.after hSame
      rw [hm]
      rfl
    revert hRegisters
    cases op with
    | sub | and | or | xor | not | shl | shr => decide +kernel
    | add | mul | push | pop | cmp => cases h
  · rintro ⟨a, b, hr⟩
    by_contra h
    exact hr (alu_modes (by simpa using h) a b)

theorem halt_modes : Respects SameButMode halt :=
  respects_bind (modify_modes fun _ _ => rfl) fun _ => advance_modes _

theorem jumpIf_modes (taken : Bool) (a : UInt8) : Respects SameButMode (jumpIf taken a) := by
  refine respects_ite ?_ (advance_modes _)
  exact respects_bind (register_modes _) fun target => modify_modes fun _ _ => rfl

/-! ## One step -/

variable {H : Host → Host → Prop}

theorem control_modes (hH : Congruence H) (op : ControlOp) (a b : UInt8) :
    Respects (Both SameButMode H) (control op a b) := by
  cases op with
  | halt => exact onMachine_both halt_modes
  | print =>
    refine respects_bind (onMachine_both (register_modes _)) fun value => ?_
    refine respects_bind (print_both hH value) fun _ => ?_
    exact onMachine_both (advance_modes _)
  | loadImmediate =>
    refine onMachine_both ?_
    exact respects_bind (setRegister_modes _ _) fun _ => advance_modes _
  | jump => exact onMachine_both (jumpIf_modes true a)
  | jumpIfEqual | jumpIfNotEqual =>
    refine onMachine_both ?_
    exact get_bind_modes (fun _ => jumpIf_modes _ a) fun _ _ => rfl

theorem execute_modes (hH : Congruence H) {opcode : Opcode} (h : opcode.dependsOnMode = false)
    (a b : UInt8) : Respects (Both SameButMode H) (execute opcode a b) := by
  cases opcode with
  | control op => exact control_modes hH op a b
  | alu op => exact onMachine_both (alu_modes h a b)

theorem refuse_modes (hH : Congruence H) (byte : UInt8) :
    Respects (Both SameButMode H) (refuse byte) := by
  refine respects_bind (onMachine_both (modify_modes fun _ _ => rfl)) fun _ => ?_
  refine respects_bind (write_both hH _ ?_) fun _ => ?_
  · rintro machine _ ⟨mode, rfl⟩
    rfl
  · refine respects_get_bind (fun _ => respects_throw _) ?_
    rintro rig rig' ⟨⟨mode, hm⟩, -⟩
    rw [hm]
    rfl

theorem perform_modes (hH : Congruence H) {fetched : Fetched}
    (h : ∀ opcode ∈ Opcode.decode fetched.opcode, opcode.dependsOnMode = false) :
    Respects (Both SameButMode H) (perform fetched) := by
  cases hd : Opcode.decode fetched.opcode with
  | none =>
    rw [perform_none hd]
    exact refuse_modes hH fetched.opcode
  | some opcode =>
    rw [perform_some hd]
    refine respects_bind (execute_modes hH (h opcode hd) _ _) fun _ => ?_
    refine respects_bind (onMachine_both (modify_modes fun _ _ => rfl)) fun _ => ?_
    exact recordInstruction_both hH opcode

/-- **A step does not see the mode**, unless what it attempts depends on it. -/
theorem step_modes (hH : Congruence H) {rig rig' : Rig} (h : Both SameButMode H rig rig')
    (ha : ∀ opcode ∈ rig.machine.attempted?, opcode.dependsOnMode = false) :
    Matches (Both SameButMode H) (step rig) (step rig') := by
  obtain ⟨mode, hm⟩ := h.machine
  have hHalted : rig'.machine.halted = rig.machine.halted := by rw [hm]; rfl
  have hFetch : rig'.machine.fetch = rig.machine.fetch := by rw [hm]; rfl
  have hTraced : Both SameButMode H (traced rig) (traced rig') := by
    refine (write_both hH .trace ?_).after h
    rintro machine _ ⟨mode, rfl⟩
    rfl
  cases hr : rig.machine.halted with
  | true =>
    rw [step_of_halted hr, step_of_halted (hHalted.trans hr)]
    exact .ok h
  | false =>
    cases hf : rig.machine.fetch with
    | error fault =>
      rw [step_of_fetch_error hr hf, step_of_fetch_error (hHalted.trans hr) (hFetch.trans hf)]
      exact .error hTraced
    | ok fetched =>
      rw [step_of_fetched hr hf, step_of_fetched (hHalted.trans hr) (hFetch.trans hf)]
      rw [attempted?_of_fetched hr hf] at ha
      exact perform_modes hH ha hTraced

end Machine

/-! ## Steps and runs -/

namespace Rig

open Ls8.Action Machine

/-- A run attempts this instruction: the limit allows the step, and all steps before it have
executed an instruction. -/
def RunAttempts (rig : Rig) (opcode : Opcode) : Prop :=
  ∃ k, rig.Proceeds k ∧ rig.machine.config.Allows (k + 1) ∧
    (rig.after k).machine.attempted? = some opcode

/-- The instructions that the first `n` steps attempt are the same in both modes. -/
def Modeless (rig : Rig) (n : Nat) : Prop :=
  ∀ k < n, ∀ opcode ∈ (rig.after k).machine.attempted?, opcode.dependsOnMode = false

theorem Modeless.mono {rig : Rig} {m n : Nat} (h : rig.Modeless n) (hm : m ≤ n) :
    rig.Modeless m := by
  intro k hk
  exact h k (hk.trans_le hm)

/-- What the steps of a run attempt, the run attempts. -/
theorem modeless_of_run {rig : Rig} {n : Nat}
    (ha : ∀ opcode, rig.RunAttempts opcode → opcode.dependsOnMode = false)
    (hp : ∀ k < n, rig.Proceeds k) (hn : rig.machine.config.Allows n) : rig.Modeless n := by
  intro k hk opcode ho
  exact ha opcode ⟨k, hp k hk, hn.mono hk, ho⟩

section

variable {H : Host → Host → Prop} {rig rig' : Rig} {n : Nat}

theorem after_modes (hH : Congruence H) (h : Both SameButMode H rig rig')
    (ha : rig.Modeless n) : Both SameButMode H (rig.after n) (rig'.after n) := by
  induction n with
  | zero => exact h
  | succ n ih =>
    have hAfter := ih (ha.mono n.le_succ)
    rw [after_succ', after_succ']
    exact (step_modes hH hAfter (ha n n.lt_succ_self)).after

theorem result_modes (hH : Congruence H) (h : Both SameButMode H rig rig')
    (ha : rig.Modeless n) {k : Nat} (hk : k < n) :
    step.result (rig'.after k) = step.result (rig.after k) :=
  (step_modes hH (after_modes hH h (ha.mono hk.le)) (ha k hk)).result_eq

theorem halted_modes (hH : Congruence H) (h : Both SameButMode H rig rig')
    (ha : rig.Modeless n) : (rig'.after n).machine.halted = (rig.after n).machine.halted := by
  obtain ⟨mode, hm⟩ := (after_modes hH h ha).machine
  rw [hm]
  rfl

theorem proceeds_modes (hH : Congruence H) (h : Both SameButMode H rig rig')
    (ha : rig.Modeless n) (hp : rig.Proceeds n) : rig'.Proceeds n :=
  hp.congr (fun _ hk => halted_modes hH h (ha.mono hk.le)) fun _ hk => result_modes hH h ha hk

end

theorem recordProgram_modes {rig rig' : Rig} (h : Both SameButMode SameConsole rig rig') :
    Both SameButMode SameConsole rig.recordProgram rig'.recordProgram :=
  ⟨h.machine, h.host⟩

theorem run?_modes {rig rig' : Rig} (h : Both SameButMode SameConsole rig rig')
    (ha : ∀ opcode, rig.RunAttempts opcode → opcode.dependsOnMode = false) :
    Option.Rel (Matches (Both SameButMode SameConsole)) (run? rig) (run? rig') := by
  have hH := sameConsole_congruence
  have hl : rig'.machine.config.maxSteps = rig.machine.config.maxSteps := by
    obtain ⟨mode, hm⟩ := h.machine
    rw [hm]
    rfl
  have hAllows : ∀ {n}, rig.machine.config.Allows n → rig'.machine.config.Allows n :=
    fun hn limit hs => hn limit (hl ▸ hs)
  cases hRun : run? rig with
  | none =>
    obtain ⟨hNone, hp⟩ := run?_eq_none_iff.mp hRun
    have hModeless : ∀ n, rig.Modeless n := by
      intro n
      exact modeless_of_run ha (fun k _ => (hp k).1) (Config.allows_of_unlimited hNone n)
    have hRun' : run? rig' = none := by
      refine run?_eq_none_iff.mpr ⟨hl.trans hNone, fun n => ⟨?_, ?_⟩⟩
      · exact proceeds_modes hH h (hModeless n) (hp n).1
      · exact (halted_modes hH h (hModeless n)).trans (hp n).2
    rw [hRun']
    exact .none
  | some ended =>
    cases run?_eq_some_iff.mp hRun with
    | @halted n allowed halts =>
      obtain ⟨hp, hh⟩ := haltsAt_iff.mp halts
      have hModeless := modeless_of_run ha (fun k hk => hp.mono hk.le) allowed
      have hHalts : rig'.HaltsAt n := haltsAt_iff.mpr
        ⟨proceeds_modes hH h hModeless hp, (halted_modes hH h hModeless).trans hh⟩
      rw [run?_of_haltsAt (hAllows allowed) hHalts]
      exact .some (.ok (recordProgram_modes (after_modes hH h hModeless)))
    | @faulted k fault allowed faults =>
      obtain ⟨hp, hr, hf⟩ := faultsAt_iff.mp faults
      have hModeless := modeless_of_run ha (fun j hj => hp.mono (Nat.le_of_lt_succ hj)) allowed
      have hBefore := hModeless.mono k.le_succ
      have hFaults : rig'.FaultsAt k fault := faultsAt_iff.mpr
        ⟨proceeds_modes hH h hBefore hp, (halted_modes hH h hBefore).trans hr,
          (result_modes hH h hModeless k.lt_succ_self).trans hf⟩
      rw [run?_of_faultsAt (hAllows allowed) hFaults]
      exact .some (.error (after_modes hH h hModeless))
    | @exhausted limit limited proceeds running =>
      have hn := (Config.allows_iff limited).mpr le_rfl
      have hModeless := modeless_of_run ha (fun k hk => proceeds.mono hk.le) hn
      rw [run?_of_exhausted (hl.trans limited) (proceeds_modes hH h hModeless proceeds)
        ((halted_modes hH h hModeless).trans running)]
      exact .some (.error (after_modes hH h hModeless))

/-- **The two modes differ only in the seven operations.** Take two machines that differ in
nothing but their mode, on consoles that are the same. As long as no step attempts one of the
seven, every step gives the same result, and leaves the machines equal but for the mode and the
consoles the same. A run that attempts none of the seven comes to the same in both modes. -/
theorem modes_agree {rig rig' : Rig} (h : Both SameButMode SameConsole rig rig') :
    (∀ n, (∀ k < n, ∀ opcode ∈ (rig.after k).machine.attempted?, opcode.dependsOnMode = false) →
      (∀ k < n, step.result (rig'.after k) = step.result (rig.after k)) ∧
        ∀ k ≤ n, Both SameButMode SameConsole (rig.after k) (rig'.after k)) ∧
    ((∀ opcode, rig.RunAttempts opcode → opcode.dependsOnMode = false) →
      Option.Rel (Matches (Both SameButMode SameConsole)) (run? rig) (run? rig')) := by
  refine ⟨fun n ha => ⟨fun k hk => ?_, fun k hk => ?_⟩, run?_modes h⟩
  · exact result_modes sameConsole_congruence h ha hk
  · exact after_modes sameConsole_congruence h (Modeless.mono ha hk)

/-- A program that doubles 8, prints the sum and halts. -/
def doubling (mode : AluMode) : Rig where
  machine := { Machine.new ⟨mode, none⟩ with
    memory := Memory.zero.overlay [0x82, 0, 8, 0xa0, 0, 0, 0x47, 0, 1] 0 }

theorem modes_agree_doubling :
    (∀ k < 5, step.result ((doubling .corrected).after k) =
      step.result ((doubling .compatible).after k)) ∧
    Option.Rel (Matches (Both SameButMode SameConsole)) (run? (doubling .compatible))
      (run? (doubling .corrected)) := by
  have hAttempts : ∀ k < 5, ∀ opcode ∈ ((doubling .compatible).after k).machine.attempted?,
      opcode.dependsOnMode = false := by
    decide +kernel
  have hHalted : ((doubling .compatible).after 4).machine.halted = true := by decide +kernel
  have hAgree := modes_agree (⟨⟨.corrected, rfl⟩, rfl⟩ :
    Both SameButMode SameConsole (doubling .compatible) (doubling .corrected))
  refine ⟨(hAgree.1 5 hAttempts).1, hAgree.2 ?_⟩
  rintro opcode ⟨k, hp, -, ho⟩
  refine hAttempts k ?_ opcode ho
  by_contra hk
  rw [(hp 4 (by omega)).1] at hHalted
  cases hHalted

end Rig

end Ls8
