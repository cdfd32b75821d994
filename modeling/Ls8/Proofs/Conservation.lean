import Ls8.Proofs.Executions

/-!
# The metrics of executed instructions

Three families of metrics are about executed instructions, and they always agree.

* `Metrics.reading`, `Metrics.sum`: what the page shows.
* `Balanced`: the page agrees with itself and with some attempts at a step.
* `Bench.Reached`: machines that are built, copied, stepped, run and changed in any other way, in
  any order. `Bench.Reached.gains`: the counts come from the attempts at a step alone.
* `gains_after`: the same for the requests to a service.
* `metrics_balance`: the page is balanced all along, for a program that uses machines and for a
  service.
-/

namespace Ls8

theorem Opcode.mnemonic_injective : Function.Injective Opcode.mnemonic := by
  intro opcode other h
  have hDistinct : (Opcode.all.map Opcode.mnemonic).Nodup := by decide
  exact List.inj_on_of_nodup_map hDistinct (Opcode.mem_all opcode) (Opcode.mem_all other) h

theorem AluMode.name_injective : Function.Injective AluMode.name := by
  intro mode other h
  cases mode <;> cases other <;> first | rfl | exact absurd h (by decide)

namespace Service

open Ls8.Metrics (Family Sample)

/-! ## What the page shows -/

namespace Metrics

def samplesOf (metrics : Metrics) (name : String) : List Sample :=
  ((metrics.families.find? (·.name == name)).map Family.samples).getD []

/-- The count under a name and labels. What was never counted is not shown. -/
def reading (metrics : Metrics) (name : String) (labels : List (String × String)) : Nat :=
  (((metrics.samplesOf name).find? (·.labels == labels)).map Sample.count).getD 0

/-- All counts under a name together. -/
def sum (metrics : Metrics) (name : String) : Nat :=
  ((metrics.samplesOf name).map Sample.count).sum

variable {κ : Type}

theorem find?_samples [DecidableEq κ] {labels : κ → List (String × String)}
    (hInj : Function.Injective labels) (counts : Counts κ) (key : κ) :
    (((samples counts labels).find? (·.labels == labels key)).map Sample.count).getD 0 =
      counts.count key := by
  obtain ⟨entries⟩ := counts
  simp only [samples, Counts.count]
  induction entries with
  | nil => rfl
  | cons entry rest ih =>
    rw [List.map_cons, lookup_cons]
    by_cases here : key = entry.1
    · rw [List.find?_cons_of_pos (by simp [here]), if_pos here]
      rfl
    · have hOther : labels entry.1 ≠ labels key := fun h => here (hInj h).symm
      rw [List.find?_cons_of_neg (by simpa using hOther), if_neg here]
      exact ih

theorem sum_samples (counts : Counts κ) (labels : κ → List (String × String)) :
    ((samples counts labels).map Sample.count).sum = counts.total := by
  obtain ⟨entries⟩ := counts
  simp only [samples, Counts.total]
  induction entries with
  | nil => rfl
  | cons entry rest ih =>
    rw [List.map_cons, List.map_cons, List.sum_cons, ih, List.foldr_cons]

theorem opcodeLabels_injective : Function.Injective opcodeLabels := by
  intro opcode other h
  simp only [opcodeLabels, List.cons.injEq, Prod.mk.injEq] at h
  exact Opcode.mnemonic_injective h.1.2

theorem modeLabels_injective : Function.Injective modeLabels := by
  intro mode other h
  simp only [modeLabels, List.cons.injEq, Prod.mk.injEq] at h
  exact AluMode.name_injective h.1.2

variable (metrics : Metrics)

theorem samplesOf_instructions : metrics.samplesOf "ls8_instructions_total" =
    samples metrics.usage.instructions opcodeLabels := rfl

theorem samplesOf_timings : metrics.samplesOf "ls8_instruction_duration_seconds" =
    samples metrics.usage.timings opcodeLabels := rfl

theorem samplesOf_programs : metrics.samplesOf "ls8_programs_run_total" =
    samples metrics.usage.programs modeLabels := rfl

theorem reading_steps : metrics.reading "ls8_steps_total" [] = metrics.usage.steps := rfl

theorem reading_instructions (opcode : Opcode) :
    metrics.reading "ls8_instructions_total" (opcodeLabels opcode) =
      metrics.usage.instructions.count opcode := by
  rw [reading, samplesOf_instructions, find?_samples opcodeLabels_injective]

theorem reading_programs (mode : AluMode) :
    metrics.reading "ls8_programs_run_total" (modeLabels mode) =
      metrics.usage.programs.count mode := by
  rw [reading, samplesOf_programs, find?_samples modeLabels_injective]

end Metrics

/-! ## Balance -/

/-- The page agrees with itself about executed instructions, and shows as many as there are attempts
that have executed one. -/
structure Balanced (metrics : Metrics) (attempts : List Rig) : Prop where
  instructions : metrics.sum "ls8_instructions_total" = metrics.reading "ls8_steps_total" []
  durations :
    metrics.sum "ls8_instruction_duration_seconds" = metrics.reading "ls8_steps_total" []
  /-- Whatever the labels are, such as those of a mnemonic. -/
  labelled (labels : List (String × String)) :
    metrics.reading "ls8_instructions_total" labels =
      metrics.reading "ls8_instruction_duration_seconds" labels
  steps : metrics.reading "ls8_steps_total" [] = attempts.countP Rig.succeeds
  mnemonic (opcode : Opcode) :
    metrics.reading "ls8_instructions_total" (Metrics.opcodeLabels opcode) =
      (Rig.executed attempts).count opcode

/-- Counts that have come from nothing by the attempts alone are balanced. -/
theorem balanced_of_gains {metrics : Metrics} {attempts : List Rig}
    (h : Usage.Gains {} metrics.usage (Rig.executed attempts)) : Balanced metrics attempts := by
  obtain ⟨hSteps, hTotal, hCount, hTimings⟩ := h
  have hSame : metrics.usage.timings = metrics.usage.instructions := hTimings rfl
  have hAll : metrics.usage.instructions.total = metrics.usage.steps := hTotal.trans hSteps.symm
  constructor
  · rw [Metrics.sum, Metrics.samplesOf_instructions, Metrics.sum_samples, hAll,
      Metrics.reading_steps]
  · rw [Metrics.sum, Metrics.samplesOf_timings, Metrics.sum_samples, hSame, hAll,
      Metrics.reading_steps]
  · intro labels
    rw [Metrics.reading, Metrics.reading, Metrics.samplesOf_instructions,
      Metrics.samplesOf_timings, hSame]
  · rw [Metrics.reading_steps, hSteps, Rig.length_executed]
    exact Nat.zero_add _
  · intro opcode
    rw [Metrics.reading_instructions, hCount]
    exact Nat.zero_add _

end Service

/-! ## Programs that use machines -/

/-- The machines that a program uses, and the instruments that all of them share. -/
structure Bench where
  machines : List Machine
  instruments : Instruments

namespace Bench

/-- A machine of the bench with a console for what it does next. -/
def rig (bench : Bench) (machine : Machine) (console : Console) : Rig :=
  ⟨machine, ⟨console, bench.instruments⟩⟩

/-- The bench when the machine at a place has done something with its surroundings. -/
def put (bench : Bench) (place : Nat) (rig : Rig) : Bench :=
  ⟨bench.machines.set place rig.machine, rig.host.instruments⟩

/-- Something is done with one of the machines, or there is one more. The list has the rigs at
which a step is attempted on the way. -/
inductive Move (bench : Bench) : List Rig → Bench → Prop where
  | build (registers : Registers) (config : Config) :
    Move bench [] { bench with machines := bench.machines ++ [.boot registers config] }
  | fork {machine : Machine} (there : machine ∈ bench.machines) :
    Move bench [] { bench with machines := bench.machines ++ [machine] }
  /-- What concerns the machine alone: a load, an operation of the arithmetic unit, a change of a
  cell or a register, the restore of a snapshot. -/
  | act {ε α : Type} {place : Nat} {machine : Machine}
    (there : bench.machines[place]? = some machine) (act : Action ε Machine α) :
    Move bench [] { bench with machines := bench.machines.set place (act.after machine) }
  | step {place : Nat} {machine : Machine} (there : bench.machines[place]? = some machine)
    (console : Console) :
    Move bench [bench.rig machine console] (bench.put place (bench.rig machine console).next)
  /-- Only a run that comes to an end is followed by anything. -/
  | run {place : Nat} {machine : Machine} (there : bench.machines[place]? = some machine)
    (console : Console) {ended : EStateM.Result Fault Rig UInt64}
    (ends : Machine.run? (bench.rig machine console) = some ended) {attempts : List Rig}
    (tries : (bench.rig machine console).attempts? = some attempts) :
    Move bench attempts (bench.put place (Rig.left ended))

/-- What a program has come to that began with no machines and nothing counted, with all the
attempts at a step that it has made. -/
inductive Reached : List Rig → Bench → Prop where
  | start (log : Log) : Reached [] ⟨[], { log }⟩
  | move {attempts more : List Rig} {bench after : Bench} (before : Reached attempts bench)
    (last : Move bench more after) : Reached (attempts ++ more) after

theorem Move.gains {bench after : Bench} {attempts : List Rig} (h : Move bench attempts after) :
    bench.instruments.usage.Gains after.instruments.usage (Rig.executed attempts) := by
  cases h with
  | build | fork | act => exact .refl _
  | @step _ machine _ console =>
    rw [Rig.executed_singleton]
    exact (Rig.counted_next (bench.rig machine console)).gains
  | run _ console ends tries =>
    obtain ⟨attempts', hAttempts, hCounted⟩ := Rig.counted_run ends
    cases tries.symm.trans hAttempts
    exact hCounted.gains

theorem Reached.gains {bench : Bench} {attempts : List Rig} (h : Reached attempts bench) :
    Usage.Gains {} bench.instruments.usage (Rig.executed attempts) := by
  induction h with
  | start => exact .refl _
  | move _ last ih =>
    rw [Rig.executed_append]
    exact ih.trans last.gains

end Bench

/-! ## Services -/

namespace Service

theorem gains_after (service : Service) (arrivals : List Arrival) :
    service.metrics.usage.Gains (service.after arrivals).metrics.usage
      (Rig.executed (service.allAttempts arrivals)) := by
  induction arrivals generalizing service with
  | nil => exact .refl _
  | cons arrival rest ih =>
    rw [allAttempts, Rig.executed_append]
    exact (counted_request service arrival).gains.trans (ih (service.next arrival))

theorem programs_after (service : Service) (arrivals : List Arrival) (mode : AluMode) :
    (service.after arrivals).metrics.usage.programs.count mode =
      service.metrics.usage.programs.count mode +
        (service.replies arrivals).countP (completes mode) := by
  induction arrivals generalizing service with
  | nil => rfl
  | cons arrival rest ih =>
    have hFirst := (counted_request service arrival).programs mode
    have hRest := ih (service.next arrival)
    rw [replies, List.countP_cons]
    show ((service.next arrival).after rest).metrics.usage.programs.count mode = _
    omega

/-- **Executed instructions are conserved by the metrics.** Whatever a program does with machines,
and whatever requests a service gets, the instructions by mnemonic and the timings agree one by
one, each of them adds up to the steps, and these are the attempts at a step that have executed an
instruction. In a service they grow with each request by what its response shows as executed, and
the programs of a mode are the runs in it that were answered without a fault. -/
theorem metrics_balance :
    (∀ attempts bench, Bench.Reached attempts bench →
      Balanced { usage := bench.instruments.usage } attempts) ∧
    ∀ settings arrivals,
      Balanced ((start settings).after arrivals).metrics ((start settings).allAttempts arrivals) ∧
      (∀ arrival, (((start settings).after arrivals).next arrival).metrics.reading
          "ls8_steps_total" [] =
        ((start settings).after arrivals).metrics.reading "ls8_steps_total" [] +
          (((start settings).after arrivals).reply arrival).stepsShown) ∧
      ∀ mode, ((start settings).after arrivals).metrics.reading "ls8_programs_run_total"
          (Metrics.modeLabels mode) =
        ((start settings).replies arrivals).countP (completes mode) := by
  refine ⟨fun attempts bench h => balanced_of_gains h.gains, fun settings arrivals => ?_⟩
  refine ⟨balanced_of_gains (gains_after (start settings) arrivals), fun arrival => ?_,
    fun mode => ?_⟩
  · have hCounted := counted_request ((start settings).after arrivals) arrival
    rw [Metrics.reading_steps, Metrics.reading_steps, hCounted.gains.steps, Rig.length_executed,
      hCounted.shown]
  · rw [Metrics.reading_programs, programs_after]
    exact Nat.zero_add _

/-- Of two machines, one of which has a program, each attempts a step, and a service gets some
requests. -/
theorem metrics_balance_forked : ∃ attempts bench, Bench.Reached attempts bench ∧
    attempts.length = 2 ∧ attempts.countP Rig.succeeds = 1 ∧
    Balanced { usage := bench.instruments.usage } attempts ∧
    Balanced ((start {}).after comingsAndGoings).metrics
      ((start {}).allAttempts comingsAndGoings) := by
  have hBuilt := (Bench.Reached.start {}).move (.build .zero {})
  have hForked := hBuilt.move (.fork List.mem_cons_self)
  have hThere : ∀ {machine other : Machine}, [machine, other][0]? = some machine := rfl
  have hOther : ∀ {machine other : Machine}, [machine, other][1]? = some other := rfl
  have hLoaded := hForked.move (.act hThere (modify fun machine : Machine =>
    { machine with memory := Session.floodMemory } : Action Fault Machine Unit))
  have hStepped := (hLoaded.move (.step hThere {})).move (.step hOther {})
  exact ⟨_, _, hStepped, rfl, by decide +kernel, metrics_balance.1 _ _ hStepped,
    (metrics_balance.2 {} comingsAndGoings).1⟩

end Service

end Ls8
