import Ls8.Execution
import Ls8.Proofs.Operations
import Ls8.Proofs.Rig
import Mathlib.Logic.Function.Iterate

/-!
# One step

What a single step can do to a rig.

* `step_of_halted`: nothing, if the machine has halted.
* `exists_executed`, `Failure`: what a step of a running machine has done if it succeeds, and where
  it can fail.
* `step_ok`: a step that succeeds counts itself and leaves the configuration alone.
* `step_error`: a step that fails leaves the machine and the counts as they were, or has met an
  unrecognized opcode and halted the machine (`step_unrecognized_iff`).
* `step_again`: a fault about an address or a register does not depend on the surroundings, so
  that it comes again at every further step.
* `step_respects`: a step depends neither on the limit of runs nor on the instruments.
* `exists_unique_ending`: every step ends in exactly one of four ways. `step_wraps`: the counter of
  steps begins again after the greatest word.
-/

namespace Ls8

/-- A fault that has to do neither with the opcode nor with the limit of a run. -/
inductive Fault.IsRefusal : Fault → Prop where
  | address (address : Nat) : IsRefusal (.addressOutOfRange address)
  | register (index : Nat) : IsRefusal (.registerOutOfRange index)
  | console : IsRefusal .consoleFull

theorem Fault.IsOfInstruction.isRefusal {fault : Fault} (h : fault.IsOfInstruction) :
    fault.IsRefusal := by
  rcases h with ⟨index, rfl⟩ | rfl
  · exact .register index
  · exact .console

namespace Machine

open Ls8.Action Rig

/-! ## Instructions -/

theorem halt_certain : Certain halt :=
  certain_bind (certain_modify _) fun _ => advance_certain _

theorem halt_orderly : Orderly halt :=
  within_bind (orderly_modify (fun _ => rfl) fun _ _ => rfl) fun _ => advance_orderly _

theorem jumpIf_orderly (taken : Bool) (a : UInt8) : Orderly (jumpIf taken a) := by
  refine within_ite ?_ (advance_orderly _)
  exact within_bind (register_orderly _) fun _ => orderly_modify (fun _ => rfl) fun _ _ => rfl

theorem jumpIf_spares (taken : Bool) (a : UInt8) : Spares id (jumpIf taken a) :=
  spares_ite (spares_bind (register_keeps _) fun _ => (certain_modify _).spares)
    (advance_certain _).spares

theorem jumpIf_of_taken {a target : UInt8} {machine : Machine}
    (h : machine.registers.get a.toNat = .ok target) :
    jumpIf true a machine = .ok () { machine with pc := target.toUInt64 } := by
  have hLook : register a.toNat machine = .ok target machine := look_of_ok h
  exact bind_of_ok hLook

theorem control_orderly (op : ControlOp) (a b : UInt8) : Rig.Orderly (control op a b) := by
  cases op with
  | halt => exact onMachine_orderly halt_orderly
  | print =>
    intro H hH
    refine within_bind (onMachine_orderly (register_orderly _) hH) fun value => ?_
    refine within_bind (print_orderly value hH) fun _ => ?_
    exact onMachine_orderly (advance_orderly _) hH
  | loadImmediate =>
    apply onMachine_orderly
    exact within_bind (setRegister_orderly _ _) fun _ => advance_orderly _
  | jump => exact onMachine_orderly (jumpIf_orderly true a)
  | jumpIfEqual | jumpIfNotEqual =>
    apply onMachine_orderly
    exact orderly_get_bind (fun _ => jumpIf_orderly _ a) fun _ _ => rfl

theorem control_spares (op : ControlOp) (a b : UInt8) : Spares core (control op a b) := by
  cases op with
  | halt =>
    exact onMachine_spares halt_certain.spares
  | print =>
    refine spares_bind (onMachine_keeps (register_keeps _)) fun value => ?_
    exact spares_bind_certain (print_keeps value).spares
      fun _ => onMachine_certain (advance_certain _)
  | loadImmediate =>
    exact onMachine_spares (spares_bind_certain (setRegister_spares _ _) fun _ => advance_certain _)
  | jump => exact onMachine_spares (jumpIf_spares true a)
  | jumpIfEqual | jumpIfNotEqual =>
    exact onMachine_spares (spares_bind keeps_get fun _ => jumpIf_spares _ a)

theorem execute_orderly (opcode : Opcode) (a b : UInt8) : Rig.Orderly (execute opcode a b) := by
  cases opcode with
  | control op => exact control_orderly op a b
  | alu op => exact onMachine_orderly (alu_orderly op a b)

/-- **An instruction that fails changes nothing but the console.** -/
theorem execute_spares (opcode : Opcode) (a b : UInt8) : Spares core (execute opcode a b) := by
  cases opcode with
  | control op => exact control_spares op a b
  | alu op => exact onMachine_spares (alu_spares op a b)

section

variable {τ : Type} {view : Machine → τ}

/-- An instruction of the control unit does nothing to what can be seen of a machine apart from its
control state, unless it loads a register that is seen. -/
theorem control_keeps (hPlace : ∀ machine pc halted, view { machine with pc, halted } = view machine)
    {op : ControlOp} {a b : UInt8}
    (hLoad : op = .loadImmediate → Keeps view (setRegister a.toNat b)) :
    Keeps (fun rig : Rig => view rig.machine) (control op a b) := by
  have hAdvance (length : UInt64) : Keeps view (advance length) :=
    keeps_modify fun machine => hPlace machine _ machine.halted
  have hJump (taken : Bool) : Keeps view (jumpIf taken a) := by
    refine keeps_ite (keeps_bind (register_keeps _) fun target => ?_) (hAdvance 2)
    exact keeps_modify fun machine => hPlace machine target.toUInt64 machine.halted
  have hHalt : Keeps view halt :=
    keeps_bind (keeps_modify fun machine => hPlace machine machine.pc true) fun _ => hAdvance 1
  cases op with
  | halt => exact onMachine_views hHalt
  | print =>
    refine keeps_bind (onMachine_views (register_keeps _)) fun value => ?_
    exact keeps_bind (print_views value) fun _ => onMachine_views (hAdvance 2)
  | loadImmediate => exact onMachine_views (keeps_bind (hLoad rfl) fun _ => hAdvance 3)
  | jump => exact onMachine_views (hJump true)
  | jumpIfEqual | jumpIfNotEqual =>
    exact onMachine_views (keeps_bind keeps_get fun _ => hJump _)

/-- So it is with every instruction that puts nothing where it is seen. -/
theorem execute_keeps (hPlace : ∀ machine pc halted, view { machine with pc, halted } = view machine)
    {opcode : Opcode} {a b : UInt8}
    (hLoad : opcode = .control .loadImmediate → Keeps view (setRegister a.toNat b))
    (hCarry : ∀ op, opcode = .alu op → ∀ machine : Machine,
      view (machine.carry op a (machine.made op a b)) = view machine) :
    Keeps (fun rig : Rig => view rig.machine) (execute opcode a b) := by
  cases opcode with
  | control op => exact control_keeps hPlace fun h => hLoad (congrArg _ h)
  | alu op =>
    refine onMachine_views (alu_keeps fun machine => ?_)
    exact (hPlace _ _ _).trans (hCarry op rfl machine)

end

/-- Every instruction but PRN is one of the machine alone. -/
theorem execute_eq_onMachine (opcode : Opcode) (a b : UInt8) :
    opcode = .control .print ∨ ∃ act, execute opcode a b = onMachine act := by
  rcases opcode with op | op
  · cases op with
    | halt => exact Or.inr ⟨halt, rfl⟩
    | print => exact Or.inl rfl
    | loadImmediate | jump | jumpIfEqual | jumpIfNotEqual => exact Or.inr ⟨_, rfl⟩
  · exact Or.inr ⟨alu op a b, rfl⟩

/-- The addresses of a fetch do not wrap around: the first one is past the last cell long before. -/
theorem fetch_eq (machine : Machine) : machine.fetch = do
    let opcode ← machine.memory.read machine.pc.toNat
    let a ← machine.memory.read (machine.pc.toNat + 1)
    let b ← machine.memory.read (machine.pc.toNat + 2)
    return { opcode, a, b } := by
  unfold fetch
  cases hFirst : machine.memory.read machine.pc.toNat with
  | error fault => rfl
  | ok opcode =>
    have hInside : machine.pc.toNat < 256 := Memory.read_lt hFirst
    have hSecond : (machine.pc + 1).toNat = machine.pc.toNat + 1 :=
      (grown_add machine.pc 1).exactly (by omega)
    have hThird : (machine.pc + 2).toNat = machine.pc.toNat + 2 :=
      (grown_add machine.pc 2).exactly (by omega)
    rw [hSecond, hThird]

theorem fetch_eq_ok_iff {machine : Machine} {x a b : UInt8} :
    machine.fetch = .ok ⟨x, a, b⟩ ↔ machine.memory.read machine.pc.toNat = .ok x ∧
      machine.memory.read (machine.pc.toNat + 1) = .ok a ∧
      machine.memory.read (machine.pc.toNat + 2) = .ok b := by
  rw [fetch_eq]
  cases machine.memory.read machine.pc.toNat <;>
    cases machine.memory.read (machine.pc.toNat + 1) <;>
    cases machine.memory.read (machine.pc.toNat + 2) <;>
    simp [bind, Except.bind, pure, Except.pure]

theorem fetch_error {machine : Machine} {fault : Fault} (h : machine.fetch = .error fault) :
    ∃ address, fault = .addressOutOfRange address := by
  rw [fetch_eq] at h
  simp only [bind, Except.bind, pure, Except.pure] at h
  repeat' split at h
  all_goals cases h
  all_goals exact ⟨_, (Memory.read_address ‹_›).2⟩

/-! ## The step as a whole -/

/-- The rig with its machine's state written to the log, if the log takes that. -/
def traced (rig : Rig) : Rig := (Rig.write .trace traceLine).after rig

theorem step_of_halted {rig : Rig} (h : rig.machine.halted = true) : step rig = .ok () rig := by
  show (if rig.machine.halted then pure () else _ : Action Fault Rig Unit) rig = _
  rw [if_pos h]
  rfl

theorem step_of_running {rig : Rig} (h : rig.machine.halted = false) :
    step rig = (onMachine (look fetch) >>= perform) (traced rig) := by
  show (if rig.machine.halted then pure () else _ : Action Fault Rig Unit) rig = _
  rw [if_neg (by rw [h]; nofun)]
  rfl

theorem step_of_fetch_error {rig : Rig} {fault : Fault} (h : rig.machine.halted = false)
    (hf : rig.machine.fetch = .error fault) : step rig = .error fault (traced rig) := by
  rw [step_of_running h]
  exact bind_of_error (onMachine_of_error (traced rig).host (look_of_error hf))

theorem step_of_fetched {rig : Rig} {fetched : Fetched} (h : rig.machine.halted = false)
    (hf : rig.machine.fetch = .ok fetched) : step rig = perform fetched (traced rig) := by
  rw [step_of_running h]
  exact bind_of_ok (onMachine_of_ok (traced rig).host (look_of_ok hf))

theorem perform_none {fetched : Fetched} (h : Opcode.decode fetched.opcode = none) :
    perform fetched = refuse fetched.opcode := by
  simp only [perform, h]

theorem perform_some {fetched : Fetched} {opcode : Opcode}
    (h : Opcode.decode fetched.opcode = some opcode) :
    perform fetched = execute opcode fetched.a fetched.b >>= fun _ =>
      onMachine countStep >>= fun _ => Rig.recordInstruction opcode := by
  simp only [perform, h]

/-- Nothing can fail any more once the instruction has been carried out. -/
theorem count_certain (opcode : Opcode) :
    Certain (onMachine countStep >>= fun _ => Rig.recordInstruction opcode) :=
  certain_bind (onMachine_certain (certain_modify _)) fun _ => certain_modify _

/-- An unrecognized opcode halts the machine and does nothing else. -/
theorem refuse_eq (byte : UInt8) (rig : Rig) :
    ∃ rig', refuse byte rig = .error (.unrecognizedOpcode byte rig.machine.pc) rig' ∧
      rig'.machine = { rig.machine with halted := true } ∧
      rig'.host.console = rig.host.console ∧ rig'.usage = rig.usage :=
  ⟨_, rfl, rfl, rfl, rfl⟩

/-- The rig with an instruction counted that has been carried out. -/
def counted (opcode : Opcode) (rig : Rig) : Rig :=
  (onMachine countStep >>= fun _ => Rig.recordInstruction opcode).after rig

/-- A step of a running machine that succeeds has carried out the instruction at the program
counter, and then counted it. -/
theorem exists_executed {rig rig' : Rig} (hr : rig.machine.halted = false)
    (h : step rig = .ok () rig') :
    ∃ fetched opcode rig₁, rig.machine.fetch = .ok fetched ∧
      Opcode.decode fetched.opcode = some opcode ∧
      execute opcode fetched.a fetched.b (traced rig) = .ok () rig₁ ∧
      rig' = counted opcode rig₁ := by
  cases hf : rig.machine.fetch with
  | error fault =>
    rw [step_of_fetch_error hr hf] at h
    cases h
  | ok fetched =>
    rw [step_of_fetched hr hf] at h
    cases hd : Opcode.decode fetched.opcode with
    | none =>
      rw [perform_none hd] at h
      obtain ⟨rig₁, he, -⟩ := refuse_eq fetched.opcode (traced rig)
      rw [he] at h
      cases h
    | some opcode =>
      rw [perform_some hd] at h
      obtain ⟨⟨⟩, rig₁, hx, hc⟩ := bind_ok h
      exact ⟨fetched, opcode, rig₁, rfl, hd, hx, (after_of_ok hc).symm⟩

/-- The ways in which a step can fail: at the fetch, at a byte that is no opcode, or in what the
instruction does. -/
inductive Failure (rig : Rig) : Fault → Rig → Prop where
  | fetch {fault : Fault} (fetched : rig.machine.fetch = .error fault) :
      Failure rig fault (traced rig)
  | refuse {bytes : Fetched} {fault : Fault} {rig' : Rig} (fetched : rig.machine.fetch = .ok bytes)
      (unknown : Opcode.decode bytes.opcode = none)
      (fails : refuse bytes.opcode (traced rig) = .error fault rig') : Failure rig fault rig'
  | execute {bytes : Fetched} {opcode : Opcode} {fault : Fault} {rig' : Rig}
      (fetched : rig.machine.fetch = .ok bytes) (known : Opcode.decode bytes.opcode = some opcode)
      (fails : execute opcode bytes.a bytes.b (traced rig) = .error fault rig') :
      Failure rig fault rig'

theorem failure_of_error {rig rig' : Rig} {fault : Fault} (h : step rig = .error fault rig') :
    rig.machine.halted = false ∧ Failure rig fault rig' := by
  have hr : rig.machine.halted = false := by
    by_contra hh
    rw [step_of_halted (by simpa using hh)] at h
    cases h
  refine ⟨hr, ?_⟩
  cases hf : rig.machine.fetch with
  | error fault' =>
    rw [step_of_fetch_error hr hf] at h
    cases h
    exact .fetch hf
  | ok fetched =>
    rw [step_of_fetched hr hf] at h
    cases hd : Opcode.decode fetched.opcode with
    | none =>
      rw [perform_none hd] at h
      exact .refuse hf hd h
    | some opcode =>
      rw [perform_some hd] at h
      rcases bind_error h with hx | ⟨⟨⟩, rig₁, -, hc⟩
      · exact .execute hf hd hx
      · exact ((count_certain opcode).ne_error hc).elim

/-- A step of a running machine that succeeds counts itself. -/
theorem step_ok {rig rig' : Rig} (hr : rig.machine.halted = false) (h : step rig = .ok () rig') :
    rig'.machine.steps = rig.machine.steps + 1 ∧ rig'.machine.config = rig.machine.config := by
  obtain ⟨fetched, opcode, rig₁, -, -, hx, rfl⟩ := exists_executed hr h
  have hk := (execute_orderly opcode fetched.a fetched.b congruence_eq).keeps.of_ok hx
  have hs : rig₁.machine.bookkeeping = rig.machine.bookkeeping := congrArg Prod.fst hk
  exact ⟨congrArg (·.1 + 1) hs, congrArg Prod.snd hs⟩

/-- A step that fails has met an unrecognized opcode, or leaves machine and counts as they were. -/
theorem step_error {rig rig' : Rig} {fault : Fault} (h : step rig = .error fault rig') :
    rig.machine.halted = false ∧ rig'.usage = rig.usage ∧
      (fault.IsRefusal ∧ rig'.machine = rig.machine ∨
        ∃ fetched, rig.machine.fetch = .ok fetched ∧ Opcode.decode fetched.opcode = none ∧
          fault = .unrecognizedOpcode fetched.opcode rig.machine.pc ∧
          rig'.machine = { rig.machine with halted := true } ∧
          rig'.host.console = rig.host.console) := by
  obtain ⟨hr, hFailure⟩ := failure_of_error h
  refine ⟨hr, ?_⟩
  cases hFailure with
  | fetch hf =>
    obtain ⟨address, rfl⟩ := fetch_error hf
    exact ⟨rfl, Or.inl ⟨.address address, rfl⟩⟩
  | @refuse fetched _ _ hf hd hx =>
    obtain ⟨rig₁, he, hm, hc, hu⟩ := refuse_eq fetched.opcode (traced rig)
    cases he.symm.trans hx
    exact ⟨hu, Or.inr ⟨fetched, hf, hd, rfl, hm, hc⟩⟩
  | @execute fetched opcode _ _ _ _ hx =>
    have hs := execute_spares opcode fetched.a fetched.b hx
    refine ⟨congrArg (fun core => core.2.usage) hs, Or.inl ⟨?_, congrArg Prod.fst hs⟩⟩
    exact ((execute_orderly opcode fetched.a fetched.b congruence_eq).raises hx).isRefusal

/-- A step succeeds if the instruction does that it executes. -/
theorem step_of_executed {rig rig₁ : Rig} {fetched : Fetched} {opcode : Opcode}
    (hr : rig.machine.halted = false) (hf : rig.machine.fetch = .ok fetched)
    (hd : Opcode.decode fetched.opcode = some opcode)
    (h : execute opcode fetched.a fetched.b (traced rig) = .ok () rig₁) :
    step rig = .ok () (counted opcode rig₁) := by
  rw [step_of_fetched hr hf, perform_some hd, bind_of_ok h]
  rfl

theorem step_of_jump {rig : Rig} {fetched : Fetched} {target : UInt8}
    (hr : rig.machine.halted = false) (hf : rig.machine.fetch = .ok fetched)
    (hd : Opcode.decode fetched.opcode = some (.control .jump))
    (ht : rig.machine.registers.get fetched.a.toNat = .ok target) :
    ∃ rig', step rig = .ok () rig' ∧ rig'.machine = { rig.machine with
      pc := target.toUInt64, steps := rig.machine.steps + 1 } := by
  have hExecute : execute (.control .jump) fetched.a fetched.b (traced rig) =
      .ok () ⟨{ rig.machine with pc := target.toUInt64 }, (traced rig).host⟩ :=
    onMachine_of_ok (traced rig).host (jumpIf_of_taken ht)
  exact ⟨_, step_of_executed hr hf hd hExecute, rfl⟩

theorem step_config : Keeps (fun rig : Rig => rig.machine.config) step := by
  intro rig
  cases hs : step rig with
  | ok _ rig' =>
    rw [after_of_ok hs]
    cases hr : rig.machine.halted with
    | true =>
      rw [step_of_halted hr] at hs
      cases hs
      rfl
    | false => exact (step_ok hr hs).2
  | error fault rig' =>
    rw [after_of_error hs]
    show rig'.machine.config = rig.machine.config
    obtain ⟨-, -, ⟨-, hm⟩ | ⟨_, -, -, -, hm, -⟩⟩ := step_error hs <;> rw [hm]

theorem decode_eq_none_iff {byte : UInt8} :
    Opcode.decode byte = none ↔ byte ∉ Opcode.all.map Opcode.byte := by
  rw [Option.eq_none_iff_forall_ne_some, List.mem_map]
  constructor
  · rintro h ⟨opcode, -, rfl⟩
    exact h opcode (Opcode.decode_byte opcode)
  · intro h opcode hd
    exact h ⟨opcode, Opcode.mem_all opcode, (Opcode.eq_byte_of_decode hd).symm⟩

variable {H : Host → Host → Prop}

theorem refuse_respects (hH : Congruence H) (byte : UInt8) :
    Respects (Rig.Alike H) (refuse byte) := by
  have hHalt : Orderly (modify fun machine => { machine with halted := true }) :=
    orderly_modify (fun _ => rfl) fun _ _ => rfl
  refine respects_bind (onMachine_respects hHalt.respects) fun _ => ?_
  refine respects_bind (write_respects hH _ fun _ _ => rfl) fun _ => ?_
  refine respects_get_bind (fun _ => respects_throw _) ?_
  rintro rig rig' ⟨⟨_, hm⟩, -⟩
  rw [hm]
  rfl

theorem perform_respects (hH : Congruence H) (fetched : Fetched) :
    Respects (Rig.Alike H) (perform fetched) := by
  cases hd : Opcode.decode fetched.opcode with
  | none =>
    rw [perform_none hd]
    exact refuse_respects hH fetched.opcode
  | some opcode =>
    rw [perform_some hd]
    have hCount : Respects Machine.Alike countStep :=
      respects_modify fun machine machine' ⟨maxSteps, h⟩ => ⟨maxSteps, by rw [h]; rfl⟩
    refine respects_bind (execute_orderly _ _ _ hH).respects fun _ => ?_
    exact respects_bind (onMachine_respects hCount) fun _ => recordInstruction_respects hH opcode

/-- **A step looks neither at the limit nor at the instruments.** From rigs that are alike it
comes to the same, and leads to rigs that are alike. -/
theorem step_respects (hH : Congruence H) : Respects (Rig.Alike H) step := by
  refine respects_get_bind (fun rig => respects_ite (respects_pure _) ?_) ?_
  · refine respects_bind (write_respects hH _ fun _ _ => rfl) fun _ => ?_
    have hFetch : Respects Machine.Alike (look fetch) :=
      respects_look fun machine machine' ⟨_, h⟩ => by rw [h]; rfl
    exact respects_bind (onMachine_respects hFetch) fun fetched => perform_respects hH fetched
  · rintro rig rig' ⟨⟨_, hm⟩, -⟩
    rw [hm]
    rfl

end Machine

/-! ## Steps in a row -/

namespace Rig

open Ls8.Action Machine

/-- The rig after a step, whatever came of it. -/
def next (rig : Rig) : Rig := step.after rig

theorem next_of_ok {rig rig' : Rig} (h : step rig = .ok () rig') : rig.next = rig' :=
  after_of_ok h

/-- The rig after some steps. -/
def after (rig : Rig) (n : Nat) : Rig := next^[n] rig

theorem after_succ' (rig : Rig) (n : Nat) : rig.after (n + 1) = (rig.after n).next :=
  Function.iterate_succ_apply' next n rig

/-- A machine that jumps in place, and whose counter of steps shows the greatest word. -/
def full (maxSteps : Option UInt64) : Rig where
  machine := { Machine.new { maxSteps } with
    memory := Memory.zero.overlay [0x54] 0
    steps := .ofNat (2 ^ 64 - 1) }

end Rig

end Ls8
