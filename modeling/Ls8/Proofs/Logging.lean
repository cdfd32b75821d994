import Ls8.Proofs.Attempts

/-!
# What is logged

A machine writes to the log at the two least important levels only: its state before every step, and
a complaint about a byte that is no opcode.

* `Log.writeAll`, `Log.text_writeAll`: several records, and the lines that they come to.
* `Machine.remarks`: the records of a step. `Machine.filter_remarks`: those of the last level.
* `next_log`, `after_log`: the log after a step, and after several of them, by the states in which
  these are attempted (`Rig.attempted`).
* `Log.Quiet`: the logs that take nothing from a machine. `run_log`: such a log after a run.
-/

namespace Ls8

/-! ## Records one after another -/

namespace Log

variable {log : Log}

/-- The log with some records written to it, those that it takes. -/
def writeAll (log : Log) (records : List LogRecord) : Log :=
  records.foldl (fun log entry => log.write entry.level entry.source fun _ => entry.message) log

theorem writeAll_append (log : Log) (records more : List LogRecord) :
    log.writeAll (records ++ more) = (log.writeAll records).writeAll more :=
  List.foldl_append

/-- A record that is taken comes to a line behind the others. -/
theorem text_write {level : LogLevel} (h : log.filter.admits level = true) (coloured : Bool)
    (source : LogSource) (message : Unit → String) : (log.write level source message).text coloured =
      log.text coloured ++ LogRecord.line coloured ⟨level, source, message ()⟩ := by
  rw [write, if_pos h, text, text, Array.toList_push, List.map_append, String.join_append,
    List.map_cons, List.map_nil, String.join_cons, String.join_nil, String.append_empty]

theorem write_of_not_admits {level : LogLevel} (h : log.filter.admits level = false)
    (source : LogSource) (message : Unit → String) : log.write level source message = log :=
  if_neg (by rw [h]; nofun)

theorem write_filter (log : Log) (level : LogLevel) (source : LogSource)
    (message : Unit → String) : (log.write level source message).filter = log.filter := by
  rw [write]
  split <;> rfl

theorem writeAll_of_not_admits {records : List LogRecord}
    (h : ∀ entry ∈ records, log.filter.admits entry.level = false) : log.writeAll records = log := by
  induction records with
  | nil => rfl
  | cons entry records ih =>
    obtain ⟨hEntry, hRecords⟩ := List.forall_mem_cons.mp h
    rw [writeAll, List.foldl_cons, write_of_not_admits hEntry]
    exact ih hRecords

theorem text_writeAll (coloured : Bool) (log : Log) (records : List LogRecord) :
    (log.writeAll records).text coloured = log.text coloured ++ String.join
      ((records.filter fun entry => log.filter.admits entry.level).map
        (LogRecord.line coloured)) := by
  induction records generalizing log with
  | nil => exact String.append_empty.symm
  | cons entry records ih =>
    rw [writeAll, List.foldl_cons]
    refine (ih _).trans ?_
    rw [write_filter]
    cases hAdmits : log.filter.admits entry.level with
    | false => simp only [write_of_not_admits hAdmits, List.filter_cons, hAdmits, reduceIte,
        Bool.false_eq_true]
    | true =>
      simp only [text_write hAdmits, List.filter_cons, hAdmits, reduceIte, List.map_cons,
        String.join_cons, String.append_assoc]

/-- The log takes nothing that a machine writes. -/
def Quiet (log : Log) : Prop := log.filter.admits .debug = false

/-- What the log leaves out at one level it leaves out at the levels below. -/
theorem Quiet.not_admits_trace (h : log.Quiet) : log.filter.admits .trace = false := by
  rw [Quiet] at h
  cases hf : log.filter with
  | off => rfl
  | upTo least =>
    rw [hf] at h
    revert h
    cases least <;> decide

end Log

/-! ## Records of a machine -/

namespace Machine

/-- The record of a machine before a step. -/
def traceRecord (machine : Machine) : LogRecord := ⟨.trace, .machine, machine.traceLine⟩

/-- The record of a machine that has found a byte that is no opcode. -/
def complaint (machine : Machine) (byte : UInt8) : LogRecord :=
  ⟨.debug, .machine, "unrecognized opcode 0x" ++ Radix.hex 2 byte.toNat ++ " at PC " ++
    Radix.hex 2 machine.pc.toNat⟩

/-- What a machine writes to the log during a step. -/
def remarks (machine : Machine) : List LogRecord :=
  if machine.halted then []
  else
    machine.traceRecord :: match machine.fetch with
      | .ok fetched =>
        if (Opcode.decode fetched.opcode).isNone then [machine.complaint fetched.opcode] else []
      | .error _ => []

theorem remarks_of_halted {machine : Machine} (h : machine.halted = true) :
    machine.remarks = [] :=
  if_pos h

/-- What a machine writes before a step that it does not complain about, and what it then writes. -/
theorem remarks_of_running {machine : Machine} (h : machine.halted = false) :
    machine.remarks = [machine.traceRecord] ∨
      ∃ byte, machine.remarks = [machine.traceRecord, machine.complaint byte] := by
  rw [remarks, if_neg (by rw [h]; nofun)]
  cases machine.fetch with
  | error fault => exact Or.inl rfl
  | ok fetched =>
    dsimp only
    split
    · exact Or.inr ⟨_, rfl⟩
    · exact Or.inl rfl

/-- **A step of a running machine is traced once**, with the state before the step. -/
theorem filter_remarks {machine : Machine} (h : machine.halted = false) :
    machine.remarks.filter (·.level = .trace) = [machine.traceRecord] := by
  obtain hOne | ⟨byte, hTwo⟩ := remarks_of_running h
  · rw [hOne]
    rfl
  · rw [hTwo]
    rfl

theorem level_of_mem_remarks {machine : Machine} {entry : LogRecord} (h : entry ∈ machine.remarks) :
    entry.level = .trace ∨ entry.level = .debug := by
  cases hr : machine.halted with
  | true =>
    rw [remarks_of_halted hr] at h
    cases h
  | false =>
    obtain hOne | ⟨byte, hTwo⟩ := remarks_of_running hr
    · rw [hOne, List.mem_singleton] at h
      exact Or.inl (h ▸ rfl)
    · rw [hTwo, List.mem_cons, List.mem_singleton] at h
      rcases h with rfl | rfl
      · exact Or.inl rfl
      · exact Or.inr rfl

end Machine

theorem Log.Quiet.writeAll_remarks {log : Log} (h : log.Quiet) (machines : List Machine) :
    log.writeAll (machines.flatMap Machine.remarks) = log := by
  refine Log.writeAll_of_not_admits fun entry hEntry => ?_
  obtain ⟨machine, -, hEntry⟩ := List.mem_flatMap.mp hEntry
  rcases Machine.level_of_mem_remarks hEntry with hLevel | hLevel <;> rw [hLevel]
  · exact h.not_admits_trace
  · exact h

/-! ## The log of a rig -/

namespace Rig

open Ls8.Action Machine

/-- The log of a rig. -/
def log (rig : Rig) : Log := rig.host.instruments.log

variable {rig : Rig}

theorem traced_log (rig : Rig) : (traced rig).log = rig.log.writeAll [rig.machine.traceRecord] := rfl

theorem refuse_log (byte : UInt8) (rig : Rig) :
    ((refuse byte).after rig).log = rig.log.writeAll [rig.machine.complaint byte] := rfl

/-- An instruction that is carried out writes nothing. -/
theorem execute_log (opcode : Opcode) (a b : UInt8) : Keeps log (execute opcode a b) := by
  intro rig
  have hKept := (execute_orderly opcode a b congruence_eq).keeps rig
  exact congrArg (fun kept => kept.2.log) hKept

theorem perform_log {fetched : Fetched} {opcode : Opcode}
    (h : Opcode.decode fetched.opcode = some opcode) : Keeps log (perform fetched) := by
  have hCount : Keeps log (onMachine countStep >>= fun _ => recordInstruction opcode) :=
    fun _ => rfl
  rw [perform_some h]
  exact keeps_bind (execute_log opcode fetched.a fetched.b) fun _ => hCount

/-- **A step writes what the machine has to say about it.** -/
theorem next_log (rig : Rig) : rig.next.log = rig.log.writeAll rig.machine.remarks := by
  cases hr : rig.machine.halted with
  | true =>
    rw [next_of_ok (step_of_halted hr), remarks_of_halted hr]
    rfl
  | false =>
    rw [remarks, if_neg (by rw [hr]; nofun)]
    cases hf : rig.machine.fetch with
    | error fault => rw [next, after_of_error (step_of_fetch_error hr hf), traced_log]
    | ok fetched =>
      have hNext : rig.next = (perform fetched).after (traced rig) := by
        rw [next, Action.after, step_of_fetched hr hf]
        rfl
      dsimp only
      cases hd : Opcode.decode fetched.opcode with
      | none =>
        rw [hNext, perform_none hd, refuse_log, traced_log, ← Log.writeAll_append]
        rfl
      | some opcode =>
        rw [hNext, perform_log hd, traced_log]
        rfl

/-- The machine before each of the first `n` steps. -/
def attempted (rig : Rig) (n : Nat) : List Machine := (rig.departures n).map Rig.machine

theorem attempted_succ (rig : Rig) (n : Nat) :
    rig.attempted (n + 1) = rig.attempted n ++ [(rig.after n).machine] :=
  List.map_append

/-- Rigs with the same machine go through the same states. -/
theorem attempted_twin {H : Host → Host → Prop} (hH : Congruence H) {rig' : Rig}
    (h : Twin H rig rig') (n : Nat) : rig'.attempted n = rig.attempted n := by
  induction n with
  | zero => rfl
  | succ n ih =>
    rw [attempted_succ, attempted_succ, ih, ((twin_bisimulation hH).after h n).machine]

theorem after_log (rig : Rig) (n : Nat) :
    (rig.after n).log = rig.log.writeAll ((rig.attempted n).flatMap Machine.remarks) := by
  induction n with
  | zero => rfl
  | succ n ih =>
    rw [after_succ', next_log, ih, attempted_succ, List.flatMap_append, Log.writeAll_append,
      List.flatMap_singleton]

/-- **A run leaves a quiet log as it is.** -/
theorem run_log (h : rig.log.Quiet) {ended : EStateM.Result Fault Rig UInt64}
    (hRun : run? rig = some ended) : (left ended).log = rig.log := by
  have hAfter (n : Nat) : (rig.after n).log = rig.log := by
    rw [after_log, h.writeAll_remarks]
  cases run?_eq_some_iff.mp hRun with
  | halted => exact hAfter _
  | faulted => exact hAfter _
  | exhausted => exact hAfter _

end Rig

end Ls8
