import Ls8.Proofs.Document
import Ls8.Proofs.FrontEnds
import Ls8.Proofs.WellFormed

/-!
# Runs that are watched

The emulator's command can be asked to trace a run, and to print the machine afterwards. The run is
the same, and so is all else that the command leaves.

* `Loads`, `Course`: what becomes of an image, and in which states its machine attempts a step.
* `emulate?_of_course`: the course decides what an emulation comes to and what it writes to its log.
  `run?_of_course`: hence what the command leaves.
* `Documents`: texts from which a machine can be restored, as the printed one is.
* `Watched`: what is left by a command that watches, beside one that does not.
* `watching_only_adds`: every command that watches leaves that.
-/

namespace Ls8.CommandLine.Emulator

open Rig

/-! ## The course of an emulation -/

/-- The machine that is about to run the image of a file. -/
def Loads (arguments : Arguments) (contents : Image.Contents) (machine : Machine) : Prop :=
  ∃ image, Image.ofFile arguments.image contents = .ok image ∧
    (Machine.new (config arguments)).load image = .ok machine

/-- What becomes of the image that the arguments name: the states in which its machine attempts a
step, one after another, what is printed, and the result. A step that fails was attempted; one that
the limit does not allow was not. -/
inductive Course (arguments : Arguments) (contents : Image.Contents) :
    List Machine → Console → Except Failure Machine → Prop where
  | refused {error : ImageError} (refused : Image.ofFile arguments.image contents = .error error) :
      Course arguments contents [] {} (.error (.image error))
  | halted {machine : Machine} {n : Nat} (loads : Loads arguments contents machine)
      (allowed : machine.config.Allows n) (halts : machine.alone.HaltsAt n) :
      Course arguments contents (machine.alone.attempted n) (machine.alone.after n).console
        (.ok (machine.alone.after n).machine)
  | faulted {machine : Machine} {k : Nat} {fault : Fault} (loads : Loads arguments contents machine)
      (allowed : machine.config.Allows (k + 1)) (faults : machine.alone.FaultsAt k fault) :
      Course arguments contents (machine.alone.attempted (k + 1))
        (machine.alone.after (k + 1)).console (.error (.machine fault))
  | exhausted {machine : Machine} {limit : UInt64} (loads : Loads arguments contents machine)
      (limited : machine.config.maxSteps = some limit)
      (proceeds : machine.alone.Proceeds limit.toNat)
      (running : (machine.alone.after limit.toNat).machine.halted = false) :
      Course arguments contents (machine.alone.attempted limit.toNat)
        (machine.alone.after limit.toNat).console (.error (.machine (.stepLimitExceeded limit)))

section

variable {arguments : Arguments} {contents : Image.Contents} {attempts : List Machine}
  {console : Console} {result : Except Failure Machine}

/-- An image has a course unless its machine runs forever. -/
theorem exists_course (hEnds : ∀ machine, Loads arguments contents machine →
      ∃ ended, Machine.run? machine.alone = some ended) :
    ∃ attempts console result, Course arguments contents attempts console result := by
  cases hImage : Image.ofFile arguments.image contents with
  | error error => exact ⟨_, _, _, .refused hImage⟩
  | ok image =>
    obtain ⟨machine, hLoad⟩ := Machine.exists_load (Machine.new (config arguments))
      (Image.length_le_of_ofFile hImage)
    have hLoads : Loads arguments contents machine := ⟨image, hImage, hLoad⟩
    obtain ⟨ended, hRun⟩ := hEnds machine hLoads
    cases run?_eq_some_iff.mp hRun with
    | halted allowed halts => exact ⟨_, _, _, .halted hLoads allowed halts⟩
    | faulted allowed faults => exact ⟨_, _, _, .faulted hLoads allowed faults⟩
    | exhausted limited proceeds running =>
      exact ⟨_, _, _, .exhausted hLoads limited proceeds running⟩

theorem running_of_mem_attempted {rig : Rig} {n : Nat}
    (h : ∀ k < n, (rig.after k).machine.halted = false) :
    ∀ machine ∈ rig.attempted n, machine.halted = false := by
  induction n with
  | zero => nofun
  | succ n ih =>
    rw [attempted_succ, List.forall_mem_append]
    refine ⟨ih fun k hk => h k (Nat.lt_succ_of_lt hk), ?_⟩
    rw [List.forall_mem_singleton]
    exact h n (Nat.lt_succ_self n)

/-- Steps are attempted by running machines only. -/
theorem Course.running (h : Course arguments contents attempts console result) :
    ∀ machine ∈ attempts, machine.halted = false := by
  cases h with
  | refused => nofun
  | halted loads allowed halts =>
    exact running_of_mem_attempted fun k hk => ((haltsAt_iff.mp halts).1 k hk).1
  | faulted loads allowed faults =>
    obtain ⟨hProceeds, hRunning, -⟩ := faultsAt_iff.mp faults
    exact running_of_mem_attempted fun k hk => running_of_le hRunning (Nat.le_of_lt_succ hk)
  | exhausted loads limited proceeds running =>
    exact running_of_mem_attempted fun k hk => (proceeds k hk).1

/-! ## What an emulation comes to -/

/-- A machine with the log of an emulation goes through the same states, and prints the same. -/
theorem after_logging (machine : Machine) (log : Log) (n : Nat) :
    (Rig.after ⟨machine, ⟨{}, ⟨{}, log⟩⟩⟩ n).machine = (machine.alone.after n).machine ∧
    (Rig.after ⟨machine, ⟨{}, ⟨{}, log⟩⟩⟩ n).console = (machine.alone.after n).console ∧
    (Rig.after ⟨machine, ⟨{}, ⟨{}, log⟩⟩⟩ n).log =
      log.writeAll ((machine.alone.attempted n).flatMap Machine.remarks) := by
  have hTwin : Twin SameConsole machine.alone ⟨machine, ⟨{}, ⟨{}, log⟩⟩⟩ := ⟨rfl, rfl⟩
  have hAfter := (twin_bisimulation sameConsole_congruence).after hTwin n
  refine ⟨hAfter.machine, hAfter.host, ?_⟩
  rw [after_log, attempted_twin sameConsole_congruence hTwin]
  rfl

/-- **The course decides what an emulation comes to**, and what it writes to its log. -/
theorem emulate?_of_course (h : Course arguments contents attempts console result) (log : Log) :
    emulate? arguments log contents =
      some ⟨result, console, log.writeAll (attempts.flatMap Machine.remarks)⟩ := by
  have hTwin (machine : Machine) : Twin SameConsole machine.alone ⟨machine, ⟨{}, ⟨{}, log⟩⟩⟩ :=
    ⟨rfl, rfl⟩
  have hSame := twin_bisimulation sameConsole_congruence
  cases h with
  | refused refused => exact emulate?_of_refused refused log
  | @halted machine n loads allowed halts =>
    obtain ⟨image, hImage, hLoad⟩ := loads
    obtain ⟨hMachine, hConsole, hLog⟩ := after_logging machine log n
    have hRun := run?_of_haltsAt allowed (hSame.haltsAt (hTwin machine) halts)
    rw [emulate?_of_loaded hImage hLoad hRun, ← hMachine, ← hConsole, ← hLog]
    rfl
  | @faulted machine k fault loads allowed faults =>
    obtain ⟨image, hImage, hLoad⟩ := loads
    obtain ⟨-, hConsole, hLog⟩ := after_logging machine log (k + 1)
    have hRun := run?_of_faultsAt allowed (hSame.faultsAt (hTwin machine) faults)
    rw [emulate?_of_loaded hImage hLoad hRun, ← hConsole, ← hLog]
    rfl
  | @exhausted machine limit loads limited proceeds running =>
    obtain ⟨image, hImage, hLoad⟩ := loads
    obtain ⟨hMachine, hConsole, hLog⟩ := after_logging machine log limit.toNat
    have hRun := run?_of_exhausted limited (hSame.proceeds (hTwin machine) proceeds)
      ((congrArg Machine.halted hMachine).trans running)
    rw [emulate?_of_loaded hImage hLoad hRun, ← hConsole, ← hLog]
    rfl

end

/-! ## What the command leaves -/

/-- What the command itself writes to the log about a failure. -/
def Failure.records : Failure → List LogRecord
  | .image (.notFound path) => [⟨.debug, .emulatorCommand, "no image at " ++ path⟩]
  | _ => []

theorem Failure.record_eq (failure : Failure) (log : Log) :
    failure.record log = log.writeAll failure.records := by
  rcases failure with ⟨_ | _⟩ | _ <;> rfl

theorem Failure.level_of_mem_records {failure : Failure} {entry : LogRecord}
    (h : entry ∈ failure.records) : entry.level = .debug := by
  unfold records at h
  split at h
  · rw [List.mem_singleton.mp h]
  · cases h

/-- All that there can be to log of an emulation. -/
def recordsOf (attempts : List Machine) (result : Except Failure Machine) : List LogRecord :=
  attempts.flatMap Machine.remarks ++ match result with
    | .ok _ => []
    | .error failure => failure.records

section

variable {attempts : List Machine} {result : Except Failure Machine}

theorem level_of_mem_recordsOf {entry : LogRecord} (h : entry ∈ recordsOf attempts result) :
    entry.level = .trace ∨ entry.level = .debug := by
  rcases List.mem_append.mp h with hRemark | hFailure
  · obtain ⟨machine, -, hRemark⟩ := List.mem_flatMap.mp hRemark
    exact Machine.level_of_mem_remarks hRemark
  · cases result with
    | ok machine => cases hFailure
    | error failure => exact Or.inr (Failure.level_of_mem_records hFailure)

/-- **Every attempt is traced once**, and nothing else is. -/
theorem filter_recordsOf (h : ∀ machine ∈ attempts, machine.halted = false) :
    (recordsOf attempts result).filter (·.level = .trace) = attempts.map Machine.traceRecord := by
  have hAttempts : (attempts.flatMap Machine.remarks).filter (·.level = .trace) =
      attempts.map Machine.traceRecord := by
    induction attempts with
    | nil => rfl
    | cons machine attempts ih =>
      obtain ⟨hRunning, hOthers⟩ := List.forall_mem_cons.mp h
      rw [List.flatMap_cons, List.filter_append, Machine.filter_remarks hRunning, ih hOthers]
      rfl
  have hFailure : ∀ failure : Failure, failure.records.filter (·.level = .trace) = [] := by
    intro failure
    rw [List.filter_eq_nil_iff]
    intro entry hEntry
    rw [Failure.level_of_mem_records hEntry]
    decide
  cases result with
  | ok machine => rw [recordsOf, List.append_nil, hAttempts]
  | error failure => rw [recordsOf, List.filter_append, hAttempts, hFailure, List.append_nil]

end

/-- The lines of the log, if the log takes all records or none of them. -/
def linesOf (coloured trace : Bool) (records : List LogRecord) : String :=
  if trace then String.join (records.map (LogRecord.line coloured)) else ""

/-- What the command leaves of an emulation with the given course. -/
def exitAfter (surroundings : Surroundings) (trace dumpState : Bool) (console : Console)
    (attempts : List Machine) (result : Except Failure Machine) : Exit :=
  let lines := linesOf (wantsColour surroundings.environment) trace (recordsOf attempts result)
  match result with
  | .ok machine =>
    { code := 0
      output := printed console ++ if dumpState then dump surroundings machine else ""
      errors := lines }
  | .error failure =>
    { code := failure.code, output := printed console, errors := lines ++ failure.line }

section

variable {surroundings : Surroundings} {arguments : Arguments} {attempts : List Machine}
  {console : Console} {result : Except Failure Machine}
  (hUnset : surroundings.environment logFilterKey = none)

include hUnset

/-- A log for a trace takes all records, and one without a trace takes none. -/
theorem text_log (coloured : Bool) (records : List LogRecord)
    (hLevels : ∀ entry ∈ records, entry.level = .trace ∨ entry.level = .debug) :
    ((log arguments surroundings.environment).writeAll records).text coloured =
      linesOf coloured arguments.trace records := by
  have hLog : log arguments surroundings.environment =
      { filter := .upTo (if arguments.trace then .trace else .warn) } := by
    rw [log, logFilter, hUnset]
    rfl
  rw [hLog, Log.text_writeAll, linesOf]
  cases arguments.trace with
  | true =>
    have hAll : records.filter (fun entry => LogFilter.admits (.upTo .trace) entry.level) =
        records := by
      rw [List.filter_eq_self]
      intro entry hEntry
      rcases hLevels entry hEntry with h | h <;> rw [h] <;> rfl
    simp only [reduceIte, hAll]
    exact String.empty_append
  | false =>
    have hNone : records.filter (fun entry => LogFilter.admits (.upTo .warn) entry.level) = [] := by
      rw [List.filter_eq_nil_iff]
      intro entry hEntry
      rcases hLevels entry hEntry with h | h <;> rw [h] <;> decide
    simp only [Bool.false_eq_true, reduceIte, hNone]
    rfl

/-- **The course decides what the command leaves**: apart from the trace and the dump, that depends
on nothing else. -/
theorem run?_of_course
    (h : Course arguments (surroundings.files arguments.image) attempts console result)
    (trace dumpState : Bool) (now : Timestamp) (id : String) :
    run? { surroundings with now, id } { arguments with trace, dumpState } =
      some (exitAfter { surroundings with now, id } trace dumpState console attempts result) := by
  have hText := @text_log surroundings { arguments with trace, dumpState } hUnset
    (wantsColour surroundings.environment) (recordsOf attempts result)
    fun entry => level_of_mem_recordsOf
  have hSame (log : Log) : emulate? { arguments with trace, dumpState } log
      (surroundings.files arguments.image) =
        some ⟨result, console, log.writeAll (attempts.flatMap Machine.remarks)⟩ :=
    emulate?_of_course h log
  simp only [run?, hSame, Option.map_some, Option.some_inj]
  cases result with
  | ok machine =>
    rw [recordsOf, List.append_nil] at hText
    simp only [exit, hText, exitAfter, recordsOf, List.append_nil]
  | error failure =>
    rw [recordsOf, Log.writeAll_append, ← Failure.record_eq] at hText
    simp only [exit, hText]
    rfl

end

/-! ## With a trace and a dump, and without -/

/-- A snapshot and a text of it, from which a machine can be restored. -/
structure Documents (snapshot : Snapshot) (text : String) (machine : Machine) : Prop where
  parsed : Json.parse? text = some snapshot.toJson
  read : Snapshot.ofJson? snapshot.toJson = some snapshot
  restored : ∀ other, snapshot.restore other = .ok () machine

theorem documents_capture (id machineId : String) (createdAt : Timestamp) (machine : Machine) :
    let snapshot := Snapshot.capture id machineId createdAt machine
    Documents snapshot snapshot.toJson.pretty machine where
  parsed := Json.parse?_pretty (Snapshot.isPlain_toJson _)
  read := Snapshot.ofJson?_eq_some_iff.mpr (Snapshot.written_toJson _)
  restored other := Snapshot.restore_capture id machineId createdAt machine other

/-- What is left by a command that watches a run, beside one that does not. The run attempts a step
in the given states, prints what is on the console, and comes to the given result. -/
structure Watched (coloured trace dumpState : Bool) (attempts : List Machine) (console : Console)
    (result : Except Failure Machine) (plain watched : Exit) : Prop where
  code : watched.code = plain.code
  output : plain.output = printed console
  succeeded : ∀ machine, result = .ok machine → plain.code = 0 ∧ plain.errors = ""
  failed : ∀ failure, result = .error failure →
    plain.code = failure.code ∧ plain.code ≠ 0 ∧ plain.errors = failure.line
  /-- After the output of the program there is one document more. -/
  dumped : ∀ machine, result = .ok machine → dumpState = true → ∃ snapshot text,
    watched.output = plain.output ++ (text ++ "\n") ∧ Documents snapshot text machine
  undumped : dumpState = false ∨ plain.code ≠ 0 → watched.output = plain.output
  /-- Before the line of an error there are more lines, and among these one for each attempt. -/
  logged : ∃ records : List LogRecord,
    watched.errors = String.join (records.map (LogRecord.line coloured)) ++ plain.errors ∧
      (trace = false → records = []) ∧
      (trace = true → records.filter (·.level = .trace) = attempts.map fun machine =>
        ⟨.trace, .machine, machine.traceLine⟩)

theorem Failure.code_ne_zero (failure : Failure) : failure.code ≠ 0 := by
  unfold code
  split <;> decide

theorem linesOf_eq (coloured trace : Bool) (records : List LogRecord) :
    linesOf coloured trace records =
      String.join ((if trace then records else []).map (LogRecord.line coloured)) := by
  cases trace <;> rfl

section

variable {surroundings : Surroundings} {arguments : Arguments} {attempts : List Machine}
  {console : Console} {result : Except Failure Machine}

/-- What is left of a course, with a trace and a dump or without. -/
theorem watched_of_course
    (h : Course arguments (surroundings.files arguments.image) attempts console result)
    (trace dumpState : Bool) (now : Timestamp) (id : String) :
    Watched (wantsColour surroundings.environment) trace dumpState attempts console result
      (exitAfter surroundings false false console attempts result)
      (exitAfter { surroundings with now, id } trace dumpState console attempts result) := by
  have hTraced : trace = true →
      (if trace then recordsOf attempts result else []).filter (·.level = .trace) =
        attempts.map Machine.traceRecord := by
    rintro rfl
    exact filter_recordsOf h.running
  have hUntraced : trace = false → (if trace then recordsOf attempts result else []) = [] := by
    rintro rfl
    rfl
  cases result with
  | ok machine =>
    simp only [exitAfter, linesOf_eq, Bool.false_eq_true, reduceIte, List.map_nil, String.join_nil,
      String.append_empty]
    constructor
    case code => rfl
    case output => rfl
    case succeeded => exact fun _ _ => ⟨rfl, rfl⟩
    case failed => nofun
    case dumped =>
      rintro _ ⟨⟩ hDump
      refine ⟨_, _, ?_, documents_capture id machineId now machine⟩
      rw [if_pos hDump, dump]
    case undumped =>
      rintro (hNoDump | hFailed)
      · simp only [hNoDump, Bool.false_eq_true, reduceIte, String.append_empty]
      · exact (hFailed rfl).elim
    case logged => exact ⟨_, String.append_empty.symm, hUntraced, hTraced⟩
  | error failure =>
    simp only [exitAfter, linesOf_eq, Bool.false_eq_true, reduceIte, List.map_nil, String.join_nil,
      String.empty_append]
    constructor
    case code => rfl
    case output => rfl
    case succeeded => nofun
    case failed =>
      rintro _ ⟨⟩
      exact ⟨rfl, failure.code_ne_zero, rfl⟩
    case dumped => nofun
    case undumped => exact fun _ => rfl
    case logged => exact ⟨_, rfl, hUntraced, hTraced⟩

/-- **Watching a run only adds to what the command leaves.** Whenever the run of an image ends,
however often its machine attempts a step and whatever the result is: the words that ask for a trace
and a dump, or for one of them, lead to the same exit code, the same output of the program and the
same line of an error as the words that ask for neither. What is added are a document of the final
machine, behind the output of a program that has come to its end, and lines of the log, with the
state before each attempt among them. -/
theorem watching_only_adds (hUnset : surroundings.environment logFilterKey = none)
    (hEnds : ∀ machine, Loads arguments (surroundings.files arguments.image) machine →
      ∃ ended, Machine.run? machine.alone = some ended) :
    ∃ attempts console result,
      Course arguments (surroundings.files arguments.image) attempts console result ∧
      (∀ machine ∈ attempts, machine.halted = false) ∧
      ∀ trace dumpState now id plainWords words,
        Arguments.parse plainWords =
          .emulate { arguments with trace := false, dumpState := false } →
        Arguments.parse words = .emulate { arguments with trace, dumpState } →
        ∃ plain watched, invoke? surroundings plainWords = some plain ∧
          invoke? { surroundings with now, id } words = some watched ∧
          Watched (wantsColour surroundings.environment) trace dumpState attempts console result
            plain watched := by
  obtain ⟨attempts, console, result, hCourse⟩ := exists_course hEnds
  refine ⟨attempts, console, result, hCourse, hCourse.running, ?_⟩
  intro trace dumpState now id plainWords words hPlain hWords
  refine ⟨_, _, ?_, ?_, watched_of_course hCourse trace dumpState now id⟩
  · rw [invoke?, hPlain]
    exact run?_of_course hUnset hCourse false false surroundings.now surroundings.id
  · rw [invoke?, hWords]
    exact run?_of_course hUnset hCourse trace dumpState now id

end

/-- A run with a limit, of a program that prints a register and halts. -/
theorem watching_only_adds_printing :
    printers.environment logFilterKey = none ∧
    (∀ machine, Loads (asking "program.ls8" true 5 false) (printers.files "program.ls8") machine →
      ∃ ended, Machine.run? machine.alone = some ended) ∧
    ∃ attempts console result,
      Course (asking "program.ls8" true 5 false) (printers.files "program.ls8") attempts console
        result ∧
      (∀ machine ∈ attempts, machine.halted = false) ∧
      ∃ plain watched,
        invoke? printers (asking "program.ls8" true 5 false).words = some plain ∧
        invoke? printers { asking "program.ls8" true 5 true with trace := true }.words =
          some watched ∧
        Watched false true true attempts console result plain watched := by
  have hAsked (trace dumpState : Bool) :
      Arguments.CanBeAsked { asking "program.ls8" true 5 dumpState with trace } := by
    have hPath : "program.ls8" ≠ "" := by decide
    have hPlain : Argument.ofString "program.ls8" = .plain "program.ls8" :=
      ofString_of_toList rfl (by decide)
    exact ⟨hPath, hPlain⟩
  have hEnds : ∀ machine, Loads (asking "program.ls8" true 5 false) (printers.files "program.ls8")
      machine → ∃ ended, Machine.run? machine.alone = some ended := by
    rintro machine ⟨image, -, hLoad⟩
    have hLimit : machine.alone.machine.config.maxSteps = some 5 :=
      congrArg Config.maxSteps (Session.load_ok hLoad).1
    obtain ⟨ended, hRunEnds⟩ := exists_runEnds hLimit
    exact ⟨ended, run?_of_runEnds hRunEnds⟩
  have hUnset : printers.environment logFilterKey = none := rfl
  obtain ⟨attempts, console, result, hCourse, hRunning, hWatched⟩ := watching_only_adds hUnset hEnds
  exact ⟨hUnset, hEnds, attempts, console, result, hCourse, hRunning,
    hWatched true true printers.now printers.id _ _ (parse_words (hAsked false false))
      (parse_words (hAsked true true))⟩

end Ls8.CommandLine.Emulator
