import Ls8.Proofs.History
import Ls8.Proofs.Resumption

/-!
# Consoles that fill up

A run on a console that takes everything, beside the same run on a console that has room for some
bytes only.

* `Rig.Roomed`: rigs that differ in the room on their consoles. `perform_roomed`: among the
  instructions only PRN can tell them apart.
* `step_withRoom`, `step_cutOff`: a step that has room for its line, and one that has not.
* `after_withRoom`, `run?_withRoom`: steps and runs, as long as there is room.
* `Tries`, `exists_greatest_tries`: the steps that a run tries, whatever comes of the last one.
* `EndsIn`, `run?_cutOff`: the line that the room ends in, and a run that comes to it.
  `exists_resumed`: what a further run prints from there.
* `run_truncated`: all of this in one statement.
-/

namespace Ls8

open Ls8.Action Console
open Session (BothEndless Floods bothEndless_congruence flooding floods_even next_console)

/-! ## The room on a console -/

namespace Rig

open Machine

/-- The rig with a console that takes as many bytes more. -/
def withRoom (rig : Rig) (room : Option Nat) : Rig :=
  rig.withConsole ⟨rig.console.written, room⟩

/-- The rigs differ at most in the room on their consoles. -/
def Roomed (room : Option Nat) (rig rig' : Rig) : Prop := rig' = rig.withRoom room

variable {room : Option Nat}

theorem onMachine_roomed {α : Type} (act : Action Fault Machine α) :
    Respects (Roomed room) (onMachine act) := by
  rintro ⟨machine, host⟩ _ rfl
  show Matches _ _ (onMachine act ⟨machine, (withRoom ⟨machine, host⟩ room).host⟩)
  cases hx : act machine with
  | ok a machine' =>
    rw [onMachine_of_ok host hx, onMachine_of_ok _ hx]
    exact .ok rfl
  | error fault machine' =>
    rw [onMachine_of_error host hx, onMachine_of_error _ hx]
    exact .error rfl

theorem write_roomed (level : LogLevel) (message : Machine → String) :
    Respects (Roomed room) (write level message) := by
  apply respects_modify
  rintro rig _ rfl
  rfl

theorem recordInstruction_roomed (opcode : Opcode) :
    Respects (Roomed room) (recordInstruction opcode) := by
  apply respects_modify
  rintro rig _ rfl
  rfl

theorem refuse_roomed (byte : UInt8) : Respects (Roomed room) (refuse byte) := by
  refine respects_bind (onMachine_roomed _) fun _ => respects_bind (write_roomed _ _) fun _ => ?_
  refine respects_get_bind (fun _ => respects_throw _) ?_
  rintro rig _ rfl
  rfl

/-- Only PRN depends on the room. -/
theorem perform_roomed {fetched : Fetched}
    (h : Opcode.decode fetched.opcode ≠ some (.control .print)) :
    Respects (Roomed room) (perform fetched) := by
  cases hd : Opcode.decode fetched.opcode with
  | none =>
    rw [perform_none hd]
    exact refuse_roomed fetched.opcode
  | some opcode =>
    rw [perform_some hd]
    rcases execute_eq_onMachine opcode fetched.a fetched.b with rfl | ⟨act, hAct⟩
    · exact (h hd).elim
    · rw [hAct]
      refine respects_bind (onMachine_roomed act) fun _ => ?_
      exact respects_bind (onMachine_roomed countStep) fun _ => recordInstruction_roomed opcode

theorem afterPrint_roomed : Respects (Roomed room) afterPrint :=
  respects_bind (onMachine_roomed _) fun _ => respects_bind (onMachine_roomed _) fun _ =>
    recordInstruction_roomed _

/-! ## One step -/

variable {rig : Rig}

/-- A step that prints nothing does not see how much room there is. -/
theorem step_roomed (h : rig.machine.printed? = none) (room : Option Nat) :
    Matches (Roomed room) (step rig) (step (rig.withRoom room)) := by
  have hTraced : traced (rig.withRoom room) = (traced rig).withRoom room := rfl
  cases hr : rig.machine.halted with
  | true =>
    have hr' : (rig.withRoom room).machine.halted = true := hr
    rw [step_of_halted hr, step_of_halted hr']
    exact .ok rfl
  | false =>
    have hr' : (rig.withRoom room).machine.halted = false := hr
    cases hf : rig.machine.fetch with
    | error fault =>
      have hf' : (rig.withRoom room).machine.fetch = .error fault := hf
      rw [step_of_fetch_error hr hf, step_of_fetch_error hr' hf', hTraced]
      exact .error rfl
    | ok fetched =>
      have hf' : (rig.withRoom room).machine.fetch = .ok fetched := hf
      rw [step_of_fetched hr hf, step_of_fetched hr' hf', hTraced]
      by_cases hd : Opcode.decode fetched.opcode = some (.control .print)
      · cases hv : rig.machine.registers.get fetched.a.toNat with
        | error fault =>
          have hLook : onMachine (register fetched.a.toNat) (traced rig) =
              .error fault (traced rig) := onMachine_of_error (traced rig).host (look_of_error hv)
          have hLook' : onMachine (register fetched.a.toNat) ((traced rig).withRoom room) =
              .error fault ((traced rig).withRoom room) :=
            onMachine_of_error ((traced rig).withRoom room).host (look_of_error hv)
          rw [perform_print hd, bind_of_error hLook, bind_of_error hLook']
          exact .error rfl
        | ok value =>
          rw [printed?_of_print hr hf hd hv] at h
          cases h
      · exact perform_roomed hd rfl

variable {room : Nat}

/-- **A step that has room for its line**, if it prints one, does not see how much room there is. -/
theorem step_withRoom (hEndless : rig.console.room = none)
    (hFits : width rig.machine.printed?.toList ≤ room) :
    Matches (Roomed (some (room - width rig.machine.printed?.toList))) (step rig)
      (step (rig.withRoom (some room))) := by
  cases hv : rig.machine.printed? with
  | none => exact step_roomed hv (some room)
  | some value =>
    have hv' : (rig.withRoom (some room)).machine.printed? = some value := hv
    rw [hv, Option.toList_some, width_cons, width_nil, Nat.add_zero] at hFits
    rw [Option.toList_some, width_cons, width_nil, Nat.add_zero,
      step_of_taken hv (print_of_endless hEndless), step_of_taken hv' (print_of_le rfl hFits)]
    exact afterPrint_roomed rfl

/-- The rig that a step leaves if its line has not had enough room. -/
def cutOff (rig : Rig) (bytes : List UInt8) : Rig :=
  (traced rig).withConsole ⟨append rig.console.written bytes, some 0⟩

/-- **A step that has no room for its line** writes as much of it as there is room for, and fails
with nothing else done. -/
theorem step_cutOff {value : UInt8} (h : rig.machine.printed? = some value)
    (hShort : room < (line value).length) : step (rig.withRoom (some room)) =
      .error .consoleFull (rig.cutOff ((line value).take room)) := by
  have h' : (rig.withRoom (some room)).machine.printed? = some value := h
  exact step_of_full h' (print_of_lt rfl hShort)

/-! ## Several steps -/

theorem length_text_succ (rig : Rig) (n : Nat) : (rig.text (n + 1)).length =
    (rig.text n).length + width (rig.after n).machine.printed?.toList := by
  rw [text_succ, List.length_append, width]

theorem length_text_mono (rig : Rig) {m n : Nat} (h : m ≤ n) :
    (rig.text m).length ≤ (rig.text n).length := by
  obtain ⟨d, rfl⟩ := Nat.exists_eq_add_of_le h
  rw [text_add, List.length_append]
  exact Nat.le_add_right _ _

section

variable {n : Nat} (hEndless : rig.console.room = none)
include hEndless

/-- As long as the text has room, the steps do not see how much room there is. -/
theorem after_withRoom (hFits : (rig.text n).length ≤ room) : (rig.withRoom (some room)).after n =
    (rig.after n).withRoom (some (room - (rig.text n).length)) := by
  induction n with
  | zero => rfl
  | succ n ih =>
    rw [length_text_succ] at hFits
    have hLine : width (rig.after n).machine.printed?.toList ≤ room - (rig.text n).length := by
      omega
    have hStep := step_withRoom (after_console hEndless n).1 hLine
    rw [after_succ', ih (by omega), length_text_succ, ← Nat.sub_sub, after_succ']
    exact hStep.after

theorem halted_withRoom (hFits : (rig.text n).length ≤ room) :
    ((rig.withRoom (some room)).after n).machine.halted = (rig.after n).machine.halted := by
  rw [after_withRoom hEndless hFits]
  rfl

theorem result_withRoom (hFits : (rig.text (n + 1)).length ≤ room) :
    step.result ((rig.withRoom (some room)).after n) = step.result (rig.after n) := by
  rw [length_text_succ] at hFits
  rw [after_withRoom hEndless (by omega)]
  exact (step_withRoom (after_console hEndless n).1 (by omega)).result_eq

theorem proceeds_withRoom (hFits : (rig.text n).length ≤ room) (h : rig.Proceeds n) :
    (rig.withRoom (some room)).Proceeds n := by
  refine h.congr (fun k hk => ?_) fun k hk => ?_
  · exact halted_withRoom hEndless ((rig.length_text_mono hk.le).trans hFits)
  · exact result_withRoom hEndless ((rig.length_text_mono hk).trans hFits)

end

/-! ## A whole run -/

/-- The first `n` steps are tried: each one finds the machine running, and none before it fails. -/
def Tries (rig : Rig) (n : Nat) : Prop :=
  ∀ k < n, rig.Proceeds k ∧ (rig.after k).machine.halted = false

theorem Proceeds.tries {n : Nat} (h : rig.Proceeds n) : rig.Tries n :=
  fun k hk => ⟨h.mono hk.le, (h k hk).1⟩

theorem Tries.drop {m n : Nat} (h : rig.Tries (m + n)) : (rig.after m).Tries n := by
  intro k hk
  obtain ⟨hp, hr⟩ := h (m + k) (by omega)
  rw [after_add] at hr
  exact ⟨hp.drop, hr⟩

/-- A run tries as many steps as it can. -/
theorem exists_greatest_tries {ended : EStateM.Result Fault Rig UInt64}
    (ends : run? rig = some ended) : ∃ n,
      IsGreatest {n | rig.Tries n ∧ rig.machine.config.Allows n} n ∧
      (left ended).console = (rig.after n).console := by
  cases run?_eq_some_iff.mp ends with
  | @halted n allowed halts =>
    obtain ⟨hp, hh⟩ := haltsAt_iff.mp halts
    refine ⟨n, ⟨⟨hp.tries, allowed⟩, ?_⟩, rfl⟩
    rintro m ⟨hTries, -⟩
    by_contra hMore
    have hr := (hTries n (by omega)).2
    rw [hh] at hr
    cases hr
  | @faulted k fault allowed faults =>
    obtain ⟨hp, hr, hf⟩ := faultsAt_iff.mp faults
    refine ⟨k + 1, ⟨⟨fun j hj => ?_, allowed⟩, ?_⟩, rfl⟩
    · exact ⟨hp.mono (Nat.le_of_lt_succ hj), running_of_le hr (Nat.le_of_lt_succ hj)⟩
    · rintro m ⟨hTries, -⟩
      by_contra hMore
      exact (hTries (k + 1) (by omega)).1.not_error k.lt_succ_self fault hf
  | @exhausted limit limited proceeds running =>
    have hLimit := (Config.allows_iff limited).mpr le_rfl
    refine ⟨limit.toNat, ⟨⟨proceeds.tries, hLimit⟩, ?_⟩, rfl⟩
    rintro m ⟨-, allowed⟩
    exact (Config.allows_iff limited).mp allowed

theorem eq_text (hEndless : rig.console.room = none) {rig' : Rig} {n : Nat} {text : List UInt8}
    (hConsole : rig'.console = (rig.after n).console)
    (hText : rig'.output = rig.output ++ text) : text = rig.text n := by
  rw [output, hConsole, ← output, (after_console hEndless n).2] at hText
  exact (List.append_cancel_left hText).symm

/-- A run whose text has room does not see how much room there is. -/
theorem run?_withRoom (hEndless : rig.console.room = none)
    {whole : EStateM.Result Fault Rig UInt64} (ends : run? rig = some whole) {text : List UInt8}
    (hText : (left whole).output = rig.output ++ text)
    (hFits : text.length ≤ room) : ∃ cut, run? (rig.withRoom (some room)) = some cut ∧
      Matches (Roomed (some (room - text.length))) whole cut := by
  cases run?_eq_some_iff.mp ends with
  | @halted n allowed halts =>
    obtain ⟨hp, hh⟩ := haltsAt_iff.mp halts
    obtain rfl := eq_text (n := n) hEndless rfl hText
    have hHalts := haltsAt_iff.mpr ⟨proceeds_withRoom hEndless hFits hp,
      (halted_withRoom hEndless hFits).trans hh⟩
    refine ⟨_, run?_of_haltsAt allowed hHalts, ?_⟩
    rw [after_withRoom hEndless hFits]
    exact .ok rfl
  | @faulted k fault allowed faults =>
    obtain ⟨hp, hr, hf⟩ := faultsAt_iff.mp faults
    obtain rfl := eq_text (n := k + 1) hEndless rfl hText
    have hBefore := (rig.length_text_mono k.le_succ).trans hFits
    have hFaults := faultsAt_iff.mpr ⟨proceeds_withRoom hEndless hBefore hp,
      (halted_withRoom hEndless hBefore).trans hr, (result_withRoom hEndless hFits).trans hf⟩
    refine ⟨_, run?_of_faultsAt allowed hFaults, ?_⟩
    rw [after_withRoom hEndless hFits]
    exact .error rfl
  | @exhausted limit limited proceeds running =>
    obtain rfl := eq_text (n := limit.toNat) hEndless rfl hText
    refine ⟨_, run?_of_exhausted limited (proceeds_withRoom hEndless hFits proceeds)
      ((halted_withRoom hEndless hFits).trans running), ?_⟩
    rw [after_withRoom hEndless hFits]
    exact .error rfl

/-- The room ends in the line of a value, which the step after the first `k` prints. -/
structure EndsIn (rig : Rig) (room k : Nat) (value : UInt8) : Prop where
  prints : (rig.after k).machine.printed? = some value
  start_le : (rig.text k).length ≤ room
  lt_end : room < (rig.text k).length + (line value).length

theorem exists_endsIn {n : Nat} (h : room < (rig.text n).length) :
    ∃ k < n, ∃ value, rig.EndsIn room k value := by
  induction n with
  | zero => cases h
  | succ n ih =>
    by_cases hBefore : room < (rig.text n).length
    · obtain ⟨k, hk, hLine⟩ := ih hBefore
      exact ⟨k, by omega, hLine⟩
    · rw [length_text_succ] at h
      cases hv : (rig.after n).machine.printed? with
      | none =>
        rw [hv] at h
        exact (hBefore h).elim
      | some value =>
        rw [hv, Option.toList_some, width_cons, width_nil, Nat.add_zero] at h
        exact ⟨n, n.lt_succ_self, value, hv, Nat.not_lt.mp hBefore, h⟩

/-- A run whose text has not enough room fails at the line that the room ends in. -/
theorem run?_cutOff (hEndless : rig.console.room = none) {k : Nat} {value : UInt8}
    (hLine : rig.EndsIn room k value) (hp : rig.Proceeds k)
    (hAllows : rig.machine.config.Allows (k + 1)) :
    run? (rig.withRoom (some room)) = some (.error .consoleFull
      ((rig.after k).cutOff ((line value).take (room - (rig.text k).length)))) := by
  obtain ⟨hv, hStart, hEnd⟩ := hLine
  have hr := (printed?_eq_some hv).1
  have hStep := step_cutOff hv (Nat.sub_lt_left_of_lt_add hStart hEnd)
  rw [← after_withRoom hEndless hStart] at hStep
  have hFaults := faultsAt_iff.mpr ⟨proceeds_withRoom hEndless hStart hp,
    (halted_withRoom hEndless hStart).trans hr, result_of_error hStep⟩
  have hAllows' : (rig.withRoom (some room)).machine.config.Allows (k + 1) := hAllows
  rw [run?_of_faultsAt hAllows' hFaults, after_succ', next, after_of_error hStep]

/-- A further run, from where the first `k` steps of a run have led, prints what that run would have
printed from there on. -/
theorem exists_resumed {limit : UInt64} (limited : rig.machine.config.maxSteps = some limit)
    {k n : Nat} (hTries : rig.Tries (k + n))
    (hAllows : rig.machine.config.Allows (k + n)) {again : Rig}
    (hTwin : Twin BothEndless (rig.after k) again) : ∃ ended more, run? again = some ended ∧
      (left ended).output = again.output ++ (rig.after k).text n ++ more := by
  have hSteps := twin_bisimulation bothEndless_congruence
  have hConfig : again.machine.config = rig.machine.config := by
    rw [hTwin.machine, after_config]
  obtain ⟨ended, hEnds⟩ := exists_runEnds ((congrArg Config.maxSteps hConfig).trans limited)
  have hRun := run?_of_runEnds hEnds
  obtain ⟨m, ⟨-, hGreatest⟩, hConsole⟩ := exists_greatest_tries hRun
  have hTries' : again.Tries n := by
    intro j hj
    obtain ⟨hp, hr⟩ := hTries.drop j hj
    exact ⟨hSteps.proceeds hTwin hp, (hSteps.halted (hSteps.after hTwin j)).trans hr⟩
  have hAllows' : again.machine.config.Allows n := hConfig ▸ hAllows.mono (Nat.le_add_left n k)
  obtain ⟨d, rfl⟩ := Nat.exists_eq_add_of_le (hGreatest ⟨hTries', hAllows'⟩)
  have hText : again.text n = (rig.after k).text n := by rw [text, printed_of_twin hTwin, text]
  refine ⟨ended, (again.after n).text d, hRun, ?_⟩
  rw [output, hConsole, ← output, (after_console hTwin.host.2 _).2, text_add, hText,
    List.append_assoc]

/-! ## Where the text is cut -/

/-- What a run leaves that the console has stopped in the line of a value. PRN would have been the
instruction after the first `k`, and `rest` is the text after the line. -/
structure Interrupted (rig : Rig) (room k : Nat) (value : UInt8) (rest : List UInt8)
    (stopped : Rig) : Prop where
  line : rig.EndsIn room k value
  proceeds : rig.Proceeds k
  printed : (rig.after k).output = rig.output ++ rig.text k
  machine : stopped.machine = (rig.after k).machine
  usage : stopped.usage = (rig.after k).usage
  running : stopped.machine.halted = false
  steps : Grown rig.machine.steps stopped.machine.steps k
  /-- A further run on a console that takes everything begins with the whole line. -/
  resumed {host : Host} (endless : host.console.room = none) : ∃ again more,
    run? ⟨stopped.machine, host⟩ = some again ∧
      (left again).output = output ⟨stopped.machine, host⟩ ++ Console.line value ++ rest ++ more

/-- How a run ends on a console with room for so many bytes (`cut`), beside its end on a console
that takes everything (`whole`), where it prints `text`. -/
structure Truncated (rig : Rig) (room : Nat) (whole cut : EStateM.Result Fault Rig UInt64)
    (text : List UInt8) : Prop where
  printed : (left whole).output = rig.output ++ text
  accepted : (left cut).output = rig.output ++ text.take room
  fits (enough : text.length ≤ room) : Matches (Roomed (some (room - text.length))) whole cut
  short (less : room < text.length) : ∃ k value rest stopped,
    text = rig.text k ++ line value ++ rest ∧ cut = .error .consoleFull stopped ∧
    Interrupted rig room k value rest stopped

theorem output_of_matches {room : Option Nat} {whole cut : EStateM.Result Fault Rig UInt64}
    (h : Matches (Roomed room) whole cut) : (left cut).output = (left whole).output := by
  cases h with
  | ok related =>
    cases related
    rfl
  | error related =>
    cases related
    rfl

theorem output_cutOff (rig : Rig) (bytes : List UInt8) :
    (rig.cutOff bytes).output = rig.output ++ bytes :=
  toList_append _ _

/-- As much as there is room for are the lines before, and a part of the line. -/
theorem EndsIn.take {k : Nat} {value : UInt8} (h : rig.EndsIn room k value) (rest : List UInt8) :
    (rig.text k ++ line value ++ rest).take room =
      rig.text k ++ (line value).take (room - (rig.text k).length) := by
  have hLine : room - (rig.text k).length ≤ (line value).length :=
    Nat.sub_le_iff_le_add'.mpr h.lt_end.le
  rw [List.append_assoc, List.take_append, List.take_of_length_le h.start_le,
    List.take_append_of_le_length hLine]

theorem interrupted (hEndless : rig.console.room = none) {limit : UInt64}
    (limited : rig.machine.config.maxSteps = some limit) {n k : Nat} {value : UInt8}
    (hTries : rig.Tries n) (hAllows : rig.machine.config.Allows n) (hk : k < n)
    (hLine : rig.EndsIn room k value) (bytes : List UInt8) :
    ∃ rest, rig.text n = rig.text k ++ line value ++ rest ∧
      Interrupted rig room k value rest ((rig.after k).cutOff bytes) := by
  obtain ⟨d, rfl⟩ := Nat.exists_eq_add_of_lt hk
  obtain ⟨hp, hr⟩ := hTries k hk
  have hStill := after_console hEndless k
  rw [Nat.add_assoc] at hTries hAllows
  have hFirst : (rig.after k).text (d + 1) = line value ++ (rig.after k).next.text d := by
    rw [text, printed_succ', hLine.prints, List.flatMap_append]
    exact congrArg (· ++ _) (List.append_nil _)
  refine ⟨(rig.after k).next.text d, ?_, hLine, hp, hStill.2, rfl, rfl, hr, hp.bookkeeping.1, ?_⟩
  · rw [Nat.add_assoc, text_add, hFirst, List.append_assoc]
  · intro host endless
    have hTwin : Twin BothEndless (rig.after k) ⟨(rig.after k).machine, host⟩ :=
      ⟨rfl, hStill.1, endless⟩
    obtain ⟨again, more, hRun, hOutput⟩ := exists_resumed limited hTries hAllows hTwin
    rw [hFirst, ← List.append_assoc] at hOutput
    exact ⟨again, more, hRun, hOutput⟩

/-- **A console that fills up truncates the output and nothing else.** Take a run under a limit that
prints some text on a console that takes everything. On one with room for so many bytes it prints as
much of the text. If that is all of it, the run comes to the same. If it is less, the run fails at
the console, and leaves the machine as it was before the PRN whose line has been cut. -/
theorem run_truncated {limit : UInt64} (limited : rig.machine.config.maxSteps = some limit)
    (endless : rig.console.room = none) (room : Nat) : ∃ whole cut text,
      run? rig = some whole ∧ run? (rig.withRoom (some room)) = some cut ∧
        Truncated rig room whole cut text := by
  obtain ⟨whole, hEnds⟩ := exists_runEnds limited
  have hWhole := run?_of_runEnds hEnds
  obtain ⟨n, ⟨⟨hTries, hAllows⟩, -⟩, hConsole⟩ := exists_greatest_tries hWhole
  have hPrinted : (left whole).output = rig.output ++ rig.text n := by
    rw [output, hConsole]
    exact (after_console endless n).2
  by_cases hFits : (rig.text n).length ≤ room
  · obtain ⟨cut, hCut, hSame⟩ := run?_withRoom endless hWhole hPrinted hFits
    refine ⟨whole, cut, _, hWhole, hCut, hPrinted, ?_, fun _ => hSame, fun less => ?_⟩
    · rw [output_of_matches hSame, hPrinted, List.take_of_length_le hFits]
    · exact absurd hFits (Nat.not_le.mpr less)
  · obtain ⟨k, hk, value, hLine⟩ := exists_endsIn (Nat.not_le.mp hFits)
    have hCut := run?_cutOff endless hLine (hTries k hk).1 (hAllows.mono hk)
    obtain ⟨rest, hText, hInterrupted⟩ := interrupted endless limited hTries hAllows hk hLine _
    refine ⟨whole, _, _, hWhole, hCut, hPrinted, ?_, fun enough => absurd enough hFits, fun _ => ?_⟩
    · rw [left, output_cutOff, hInterrupted.printed, hText, hLine.take, List.append_assoc]
    · exact ⟨k, value, rest, _, hText, rfl, hInterrupted⟩

/-- A machine that prints zeros up to its limit: four of them. -/
def printing : Rig where
  machine := flooding (some 7) 0 0

/-- There is room for the first line, and for the digit of the second. -/
theorem run_truncated_printing : ∃ whole cut, run? printing = some whole ∧
    run? (printing.withRoom (some 3)) = some cut ∧
    Truncated printing 3 whole cut [48, 10, 48, 10, 48, 10, 48, 10] := by
  have hMachine : printing.machine = flooding (some 7) 0 0 := rfl
  have hEndless : printing.console.room = none := rfl
  -- Nothing else is needed of the rig.
  generalize printing = rig at hMachine hEndless ⊢
  have hLimited : rig.machine.config.maxSteps = some 7 := by
    rw [hMachine]
    rfl
  obtain ⟨whole, cut, text, hWhole, hCut, hTruncated⟩ := run_truncated hLimited hEndless 3
  have hFloods : Floods rig (some 7) 2 (7 : UInt64).toNat 4 :=
    (floods_even hMachine hEndless 3).print
  have hRunning : (rig.after (7 : UInt64).toNat).machine.halted = false := by
    rw [hFloods.machine]
    rfl
  cases hWhole.symm.trans (run?_of_exhausted hLimited hFloods.proceeds hRunning)
  have hText := eq_text (n := (7 : UInt64).toNat) hEndless rfl hTruncated.printed
  rw [Rig.text, hFloods.printed] at hText
  subst hText
  exact ⟨_, cut, hWhole, hCut, hTruncated⟩

end Rig

end Ls8
