import Ls8.CommandLine.Emulator
import Ls8.Proofs.Arguments
import Ls8.Proofs.Calls
import Ls8.Proofs.Dispatch
import Ls8.Proofs.Document
import Ls8.Proofs.History
import Ls8.Proofs.Image
import Ls8.Proofs.Loading
import Ls8.Proofs.Logging

/-!
# The command line and the service

An image can be run by the emulator's command or by the service. The command reads it from a file
and prints while it runs; the service takes it from a request, keeps what is printed, and bounds
the limit that it is asked for.

* `run?_of_bad`, `run?_of_loaded`: what the command leaves of an image.
* `runOnce_of_bad`, `runOnce_of_loaded`: what the service answers.
* `callOf?_post`: every run can be asked for.
* `runAgrees_of_matches`: runs of machines that only their instruments tell apart.
* `front_ends_agree`: the command and the service, asked for the same.
-/

namespace Ls8

open Console

/-! ## Texts on a console -/

namespace CommandLine.Emulator

/-- The characters of a printed value. -/
theorem map_line (value : UInt8) : (line value).map (fun byte => Char.ofNat byte.toNat) =
    Nat.toDigits 10 value.toNat ++ ['\n'] := by
  rw [line_eq, List.map_append, Session.map_digits]
  rfl

theorem printed_of_holds {console : Console} {values : List UInt8}
    (h : Holds console.written values) :
    printed console = String.join (values.map fun value => value.toNat.repr ++ "\n") := by
  rw [printed, h]
  clear h
  induction values with
  | nil => rfl
  | cons value values ih =>
    rw [List.flatMap_cons, List.map_append, String.ofList_append, ih, map_line,
      String.ofList_append, ← Nat.repr_eq_ofList_toDigits, List.map_cons, String.join_cons]

/-- What is printed is ASCII. -/
theorem printed_size {console : Console} {values : List UInt8}
    (h : Holds console.written values) :
    (printed console).utf8ByteSize = console.written.size := by
  have hAscii : ∀ c ∈ console.written.data.toList.map (fun byte => Char.ofNat byte.toNat),
      c.toNat ≤ 127 := by
    intro c hc
    rw [h, List.map_flatMap, List.mem_flatMap] at hc
    obtain ⟨value, -, hc⟩ := hc
    rw [map_line, List.mem_append, List.mem_singleton] at hc
    rcases hc with hDigit | rfl
    · have hHigh := (Char.isDigit_iff_toNat.mp (Text.isDigit_of_mem_toDigits hDigit)).2
      have hNine : '9'.toNat = 57 := rfl
      omega
    · decide
  rw [printed, Text.utf8ByteSize_ofList hAscii, List.length_map, size_eq_length]

/-! ## The command -/

/-- The log of a command whose environment asks for no other: of what a machine writes it takes
nothing. -/
def quietLog : Log where
  filter := .upTo .warn

/-- A machine, beside the output and the log of the command. -/
def rig (machine : Machine) : Rig := ⟨machine, ⟨{}, ⟨{}, quietLog⟩⟩⟩

/-- What the command leaves after a run. -/
def exitOf (surroundings : Surroundings) (dumpState : Bool) :
    EStateM.Result Fault Rig UInt64 → Exit
  | .ok _ left =>
    { code := 0
      output := printed left.console ++ if dumpState then dump surroundings left.machine else "" }
  | .error fault left =>
    { code := 1, output := printed left.console, errors := "error: " ++ fault.message ++ "\n" }

section

variable {arguments : Arguments} {contents : Image.Contents}

theorem emulate?_of_refused {error : ImageError}
    (h : Image.ofFile arguments.image contents = .error error) (log : Log) :
    emulate? arguments log contents = some ⟨.error (.image error), {}, log⟩ := by
  simp only [emulate?, h]

theorem emulate?_of_loaded {image : List UInt8} {machine : Machine}
    (hImage : Image.ofFile arguments.image contents = .ok image)
    (hLoad : (Machine.new (config arguments)).load image = .ok machine) {log : Log}
    {ended : EStateM.Result Fault Rig UInt64}
    (hRun : Machine.run? ⟨machine, ⟨{}, ⟨{}, log⟩⟩⟩ = some ended) :
    emulate? arguments log contents = some (.ofResult ended) := by
  simp only [emulate?, hImage, hLoad, hRun, Option.map_some]

end

section

variable {surroundings : Surroundings} {arguments : Arguments} {text : String}
  (hFile : surroundings.files arguments.image = .bytes text.toUTF8)
  (hUnset : surroundings.environment logFilterKey = none) (hTrace : arguments.trace = false)

theorem ofFile_bytes (path text : String) :
    Image.ofFile path (.bytes text.toUTF8) = Image.parse text := by
  simp only [Image.ofFile, Text.fromUTF8?_toUTF8]

include hUnset hTrace in
theorem log_of_unset : log arguments surroundings.environment = quietLog := by
  rw [log, logFilter, hUnset, hTrace]
  rfl

include hFile hUnset hTrace

theorem run?_of_bad {error : ImageError} (h : Image.parse text = .error error) :
    run? surroundings arguments =
      some { code := 1, errors := "error: " ++ error.message ++ "\n" } := by
  have hRefused : Image.ofFile arguments.image (surroundings.files arguments.image) =
      .error error := by
    rw [hFile, ofFile_bytes, h]
  simp only [run?, log_of_unset hUnset hTrace, emulate?_of_refused hRefused, Option.map_some,
    Option.some_inj]
  rcases Image.parse_error_cases h with ⟨line, payload, rfl⟩ | rfl <;> rfl

theorem run?_of_loaded {image : List UInt8} {machine : Machine}
    (hImage : Image.parse text = .ok image)
    (hLoad : (Machine.new (config arguments)).load image = .ok machine)
    {ended : EStateM.Result Fault Rig UInt64} (hRun : Machine.run? (rig machine) = some ended) :
    run? surroundings arguments = some (exitOf surroundings arguments.dumpState ended) := by
  have hQuiet : (rig machine).log.Quiet := rfl
  have hText : (Rig.left ended).log.text (wantsColour surroundings.environment) = "" := by
    rw [Rig.run_log hQuiet hRun]
    rfl
  have hRead : Image.ofFile arguments.image (surroundings.files arguments.image) = .ok image := by
    rw [hFile, ofFile_bytes, hImage]
  simp only [run?, log_of_unset hUnset hTrace, emulate?_of_loaded hRead hLoad hRun,
    Option.map_some, Option.some_inj]
  cases ended with
  | ok n left =>
    have hLog : left.host.instruments.log.text (wantsColour surroundings.environment) = "" := hText
    simp only [Emulation.ofResult, exit, hLog, exitOf]
    rfl
  | error fault left =>
    have hLog : left.host.instruments.log.text (wantsColour surroundings.environment) = "" := hText
    simp only [Emulation.ofResult, exit, Failure.record, hLog, exitOf]
    rfl

end

end CommandLine.Emulator

/-! ## The service -/

namespace Service

/-- A request for a run, as an object. -/
def RunRequest.toJson (asked : RunRequest) : Json :=
  .object [("image", .string asked.image), ("corrected", .ofOption .bool asked.corrected),
    ("max_steps", .ofOption (.natural ·.toNat) asked.maxSteps)]

/-- The request to send for a run. -/
def RunRequest.post (asked : RunRequest) : Http.Request where
  method := "POST"
  path := "/run"
  body := asked.toJson.compact

theorem RunRequest.isPlain_toJson (asked : RunRequest) : asked.toJson.IsPlain := by
  refine .object fun member hMember => ?_
  simp only [List.mem_cons, List.not_mem_nil, or_false] at hMember
  rcases hMember with rfl | rfl | rfl
  · exact .string _
  · cases asked.corrected with
    | none => exact .null
    | some corrected => exact .bool corrected
  · cases asked.maxSteps with
    | none => exact .null
    | some limit => exact .natural _

theorem RunRequest.ofJson?_toJson (asked : RunRequest) :
    RunRequest.ofJson? asked.toJson = some asked := by
  have hRecord : asked.toJson.isRecord ["image", "corrected", "max_steps"] = true := rfl
  have hImage : asked.toJson.required 0 "image" Json.string? = some asked.image := rfl
  have hCorrected : asked.toJson.optional 1 "corrected" Json.bool? = some asked.corrected :=
    (Json.optional_eq_some_iff nofun fun _ _ => Json.bool?_eq_some_iff).mpr (Or.inl rfl)
  have hMaxSteps : asked.toJson.optional 2 "max_steps" wordOfJson? = some asked.maxSteps :=
    (Json.optional_eq_some_iff nofun fun _ _ => wordOfJson?_eq_some_iff).mpr (Or.inl rfl)
  simp [RunRequest.ofJson?, hRecord, hImage, hCorrected, hMaxSteps]

theorem callOf?_post (asked : RunRequest) : callOf? asked.post = some (.run asked) := by
  have hRead : Route.readBody asked.post RunRequest.ofJson? = .ok asked := by
    have hBody : Json.parse? asked.post.body = some asked.toJson :=
      Json.parse?_compact asked.isPlain_toJson
    have hType : asked.post.header? Http.contentType = none := rfl
    rw [Route.readBody, hType, hBody, Option.bind_some, RunRequest.ofJson?_toJson]
    rfl
  have hBind : Route.run.bind? asked.post = some "" := by
    simp only [Route.bind?, Http.Request.segments, RunRequest.post]
    decide +kernel
  have hAccept : Route.run.accept asked.post = .ok (.run asked) := by
    rw [Route.accept, hBind]
    simp only [Route.call, hRead]
    rfl
  exact callOf?_of_accept hAccept

/-- The report of a run. -/
def reportOf (supply : Supply) (ended : EStateM.Result Fault Rig UInt64) : RunReport :=
  let session := Session.mk (Rig.left ended).machine supply.now
    (Session.trim Session.consoleLimit (Rig.left ended).console.written)
  { runId := supply.runId
    output := session.output
    stepsExecuted := session.machine.steps.toNat
    halted := session.machine.halted
    fault := match ended with
      | .ok _ _ => none
      | .error fault _ => some fault
    finalState := .capture session.machine }

section

variable {service : Service} (asked : RunRequest) (supply : Supply)

theorem runOnce_of_bad {error : ImageError} (h : Image.parse asked.image = .error error) :
    (service.runOnce supply asked).2 = .refused (.badImage error) := by
  have hSession : ∀ config, Session.ofImage asked.image config supply.now = .error error := by
    intro config
    rw [Session.ofImage, h]
    rfl
  simp only [runOnce, hSession]

theorem runOnce_of_loaded {image : List UInt8} {machine : Machine}
    (hImage : Image.parse asked.image = .ok image)
    (hLoad : (Machine.new (service.settings.machineConfig asked.corrected asked.maxSteps)).load
      image = .ok machine) {ended : EStateM.Result Fault Rig UInt64}
    (hRun : Machine.run? (Session.rig { machine, createdAt := supply.now } service.instruments) =
      some ended) : (service.runOnce supply asked).2 = .ran (reportOf supply ended) := by
  have hSession : Session.ofImage asked.image
      (service.settings.machineConfig asked.corrected asked.maxSteps) supply.now =
      .ok { machine, createdAt := supply.now } := by
    simp only [Session.ofImage, hImage, bind, Except.bind, hLoad]
    rfl
  have hLimit : machine.config.maxSteps = some (service.settings.runLimit asked.maxSteps) :=
    congrArg Config.maxSteps (Session.load_ok hLoad).1
  have hOutcome := @Session.run?_eq_runWithin { machine, createdAt := supply.now } _ hLimit
    service.instruments
  rw [Session.run?_eq, hRun, Option.map_some, Option.some_inj] at hOutcome
  simp only [runOnce, hSession, ← hOutcome]
  cases ended <;> rfl

end

end Service

/-! ## Side by side -/

namespace CommandLine.Emulator

open Service (Answer RunReport RunRequest Supply callOf?)

/-- What the command leaves of a run, without a dump and with one, beside a report of the
service. -/
structure RunAgrees (plain dumping : Exit) (report : RunReport) : Prop where
  succeeded : plain.code = 0 ∧ plain.errors = "" ↔ report.fault = none
  halted : report.fault = none → report.halted = true
  failed : ∀ fault, report.fault = some fault →
    plain.code = 1 ∧ plain.errors = "error: " ++ fault.message ++ "\n"
  /-- The service keeps all lines of an output that is short enough. -/
  output : plain.output.utf8ByteSize ≤ Session.consoleLimit →
    plain.output = String.join (report.output.map (· ++ "\n"))
  /-- The dump comes after the output, and shows the state of the report. -/
  dumped : report.fault = none → ∃ snapshot : Snapshot, snapshot.state = report.finalState ∧
    dumping = { plain with output := plain.output ++ (snapshot.toJson.pretty ++ "\n") }
  undumped : report.fault ≠ none → dumping = plain

/-- What the command leaves, without a dump and with one, beside a response of the service. -/
inductive Agrees (text : String) (plain dumping : Exit) (response : Http.Response) : Prop where
  /-- Both refuse the image, with the same words. -/
  | refused {error : ImageError} (refused : Image.parse text = .error error)
      (status : response.status = 400) (body : response.body = .json (Answer.failure error.message))
      (plain_eq : plain = { code := 1, errors := "error: " ++ error.message ++ "\n" })
      (dumping_eq : dumping = plain)
  /-- Both run it. -/
  | ran {image : List UInt8} {report : RunReport} (accepted : Image.parse text = .ok image)
      (status : response.status = 200)
      (body : response.body = .json (Answer.success report.toJson))
      (agrees : RunAgrees plain dumping report)

/-- An output that is short enough is kept line by line. -/
theorem printed_eq_join {console kept : Console} {values : List UInt8}
    (h : Holds console.written values) (hKept : kept = console)
    (hFits : (printed console).utf8ByteSize ≤ Session.consoleLimit) (machine : Machine)
    (createdAt : Timestamp) : printed console = String.join
      ((Session.mk machine createdAt (Session.trim Session.consoleLimit kept.written)).output.map
        (· ++ "\n")) := by
  rw [printed_size h] at hFits
  have hTrimmed : Holds (Session.mk machine createdAt
      (Session.trim Session.consoleLimit kept.written)).console values := by
    rw [hKept, Session.trim_of_le hFits]
    exact h
  rw [printed_of_holds h, Session.output_of_holds hTrimmed, List.map_map]
  rfl

/-- Runs that only the instruments tell apart agree. -/
theorem runAgrees_of_matches (surroundings : Surroundings) (supply : Supply)
    {ended ended' : EStateM.Result Fault Rig UInt64} {values : List UInt8}
    (h : Action.Matches (Rig.Twin Rig.SameConsole) ended ended')
    (hHolds : Holds (Rig.left ended).console.written values)
    (hHalted : ∀ n left, ended = .ok n left → left.machine.halted = true) :
    RunAgrees (exitOf surroundings false ended) (exitOf surroundings true ended)
      (Service.reportOf supply ended') := by
  cases h with
  | @ok n left left' twin =>
    have hMachine : left'.machine = left.machine := twin.machine
    have hConsole : left'.console = left.console := twin.host
    have hPlain : (exitOf surroundings false (.ok n left)).output = printed left.console :=
      String.append_empty
    constructor
    case succeeded => exact ⟨fun _ => rfl, fun _ => ⟨rfl, rfl⟩⟩
    case halted =>
      intro _
      show left'.machine.halted = true
      rw [hMachine]
      exact hHalted n left rfl
    case failed => nofun
    case output =>
      intro hFits
      rw [hPlain] at hFits ⊢
      exact printed_eq_join hHolds hConsole hFits left'.machine supply.now
    case dumped =>
      intro _
      refine ⟨Snapshot.capture surroundings.id machineId surroundings.now left.machine, ?_, ?_⟩
      · show MachineState.capture left.machine = MachineState.capture left'.machine
        rw [hMachine]
      · rw [hPlain]
        rfl
    case undumped =>
      intro h
      exact (h rfl).elim
  | @error fault left left' twin =>
    have hConsole : left'.console = left.console := twin.host
    constructor
    case succeeded => exact iff_of_false (fun h => Nat.one_ne_zero h.1) nofun
    case halted => nofun
    case failed =>
      rintro other ⟨⟩
      exact ⟨rfl, rfl⟩
    case output =>
      intro hFits
      exact printed_eq_join hHolds hConsole hFits left'.machine supply.now
    case dumped => nofun
    case undumped =>
      intro _
      rfl

/-- What is asked of both: to run the image of a file, in a mode and under a limit. -/
def asking (path : String) (corrected : Bool) (limit : UInt64) (dumpState : Bool) : Arguments where
  image := path
  corrected := corrected
  maxSteps := some limit
  dumpState := dumpState

/-- The same, asked of the service. -/
def sending (text : String) (corrected : Option Bool) (limit : UInt64) : RunRequest where
  image := text
  corrected := corrected
  maxSteps := some limit

section

variable {surroundings : Surroundings} {path text : String} {corrected : Option Bool}
  {limit : UInt64} {service : Service}

/-- A machine with its image, run by the command and by the service. -/
theorem runAgrees_of_loaded {machine : Machine} (hLimit : machine.config.maxSteps = some limit)
    (supply : Supply) (instruments : Instruments) :
    ∃ ended ended', Machine.run? (rig machine) = some ended ∧
      Machine.run? (Session.rig { machine, createdAt := supply.now } instruments) = some ended' ∧
      RunAgrees (exitOf surroundings false ended) (exitOf surroundings true ended)
        (Service.reportOf supply ended') := by
  have hTwin : Rig.Twin Rig.SameConsole (rig machine)
      (Session.rig { machine, createdAt := supply.now } instruments) := ⟨rfl, rfl⟩
  obtain ⟨ended, hEnds⟩ : ∃ ended, (rig machine).RunEnds ended := Rig.exists_runEnds hLimit
  have hRun := Rig.run?_of_runEnds hEnds
  have hBoth := Rig.run?_twin hTwin
  rw [hRun] at hBoth
  obtain ⟨ended', hRun', hMatches⟩ : ∃ ended', Machine.run?
      (Session.rig { machine, createdAt := supply.now } instruments) = some ended' ∧
      Action.Matches (Rig.Twin Rig.SameConsole) ended ended' := by
    generalize Machine.run? (Session.rig { machine, createdAt := supply.now } instruments) = other
      at hBoth
    cases hBoth with
    | some matched => exact ⟨_, rfl, matched⟩
  obtain ⟨n, hExecutes⟩ := hEnds.exists_runExecutes
  have hHolds := Rig.holds_run rfl hRun hExecutes holds_empty
  have hHalted : ∀ n left, ended = .ok n left → left.machine.halted = true := by
    rintro n left rfl
    obtain ⟨_, -, hHalts, -, rfl⟩ := Rig.run?_eq_ok_iff.mp hRun
    exact (Rig.haltsAt_iff.mp hHalts).2
  exact ⟨ended, ended', hRun, hRun',
    runAgrees_of_matches surroundings supply hMatches hHolds hHalted⟩

theorem config_asking (hCap : limit ≤ service.settings.maxSteps) (path : String)
    (corrected : Option Bool) (dumpState : Bool) :
    config (asking path (corrected.getD false) limit dumpState) =
      service.settings.machineConfig corrected (some limit) := by
  have hLimit : service.settings.runLimit (some limit) = limit := if_pos hCap
  rw [Service.Settings.machineConfig, hLimit]
  rfl

/-- The command leaves something, and it agrees with what the service answers. -/
theorem exists_agrees (hPath : path ≠ "") (hPlain : Argument.ofString path = .plain path)
    (hFile : surroundings.files path = .bytes text.toUTF8)
    (hUnset : surroundings.environment logFilterKey = none)
    (hCap : limit ≤ service.settings.maxSteps) (supply : Supply) :
    ∃ plain dumping,
      invoke? surroundings (asking path (corrected.getD false) limit false).words = some plain ∧
      invoke? surroundings (asking path (corrected.getD false) limit true).words = some dumping ∧
      ∀ request, callOf? request = some (.run (sending text corrected limit)) →
        Agrees text plain dumping (service.handle supply request).2 := by
  have hInvoke : ∀ dumpState,
      invoke? surroundings (asking path (corrected.getD false) limit dumpState).words =
        run? surroundings (asking path (corrected.getD false) limit dumpState) := by
    intro dumpState
    have hAsked : (asking path (corrected.getD false) limit dumpState).CanBeAsked :=
      ⟨hPath, hPlain⟩
    rw [invoke?, parse_words hAsked]
  rw [hInvoke, hInvoke]
  have hAnswer : (service.answer supply (.run (sending text corrected limit))).2 =
      (service.runOnce supply (sending text corrected limit)).2 := rfl
  cases hImage : Image.parse text with
  | error error =>
    refine ⟨_, _, run?_of_bad hFile hUnset rfl hImage, run?_of_bad hFile hUnset rfl hImage, ?_⟩
    intro request hCall
    rw [Service.handle_of_call hCall, hAnswer,
      Service.runOnce_of_bad (sending text corrected limit) supply hImage]
    exact .refused hImage (Service.present_status request _) (Service.present_body request _)
      rfl rfl
  | ok image =>
    obtain ⟨machine, hLoad⟩ := Machine.exists_load
      (Machine.new (service.settings.machineConfig corrected (some limit)))
      (Image.length_le_of_parse hImage)
    have hMax : machine.config.maxSteps = some limit := by
      rw [(Session.load_ok hLoad).1, ← config_asking hCap path corrected false]
      rfl
    obtain ⟨ended, ended', hRun, hRun', hAgrees⟩ :=
      runAgrees_of_loaded hMax supply service.instruments
    have hLeft : ∀ dumpState, run? surroundings
        (asking path (corrected.getD false) limit dumpState) =
          some (exitOf surroundings dumpState ended) := by
      intro dumpState
      refine run?_of_loaded hFile hUnset rfl hImage ?_ hRun
      rw [config_asking hCap, hLoad]
    refine ⟨_, _, hLeft false, hLeft true, fun request hCall => ?_⟩
    rw [Service.handle_of_call hCall, hAnswer,
      Service.runOnce_of_loaded (sending text corrected limit) supply hImage hLoad hRun']
    exact .ran hImage (Service.present_status request _) (Service.present_body request _) hAgrees

/-- **The command and the service agree.** An image can be sent to the service whatever its text.
The command on a file with that text always leaves something, and for every request that sends the
image it is what the service answers: the same refusal, or the same end of the same run. -/
theorem front_ends_agree (hPath : path ≠ "") (hPlain : Argument.ofString path = .plain path)
    (hFile : surroundings.files path = .bytes text.toUTF8)
    (hUnset : surroundings.environment logFilterKey = none)
    (hCap : limit ≤ service.settings.maxSteps) (corrected : Option Bool) (supply : Supply) :
    callOf? (sending text corrected limit).post = some (.run (sending text corrected limit)) ∧
    ∃ plain dumping,
      invoke? surroundings (asking path (corrected.getD false) limit false).words = some plain ∧
      invoke? surroundings (asking path (corrected.getD false) limit true).words = some dumping ∧
      ∀ request, callOf? request = some (.run (sending text corrected limit)) →
        Agrees text plain dumping (service.handle supply request).2 :=
  ⟨Service.callOf?_post _, exists_agrees hPath hPlain hFile hUnset hCap supply⟩

end

/-- A program that prints a register and halts. -/
def printing : String := "01000111\n00000000\n00000001\n"

/-- A computer on which every file holds that program. -/
def printers : Surroundings where
  environment := fun _ => none
  files := fun _ => .bytes printing.toUTF8
  now := .epoch
  id := "a"

theorem front_ends_agree_printing :
    "program.ls8" ≠ "" ∧ Argument.ofString "program.ls8" = .plain "program.ls8" ∧
    printers.files "program.ls8" = .bytes printing.toUTF8 ∧
    printers.environment logFilterKey = none ∧
    5 ≤ ({ settings := {} } : Service).settings.maxSteps ∧
    callOf? (sending printing (some true) 5).post =
      some (.run (sending printing (some true) 5)) ∧
    ∃ plain dumping, invoke? printers (asking "program.ls8" true 5 false).words = some plain ∧
      invoke? printers (asking "program.ls8" true 5 true).words = some dumping ∧
      Agrees printing plain dumping (({ settings := {} } : Service).handle ⟨.epoch, "a", "a", "a"⟩
        (sending printing (some true) 5).post).2 := by
  have hPath : "program.ls8" ≠ "" := by decide
  have hPlain : Argument.ofString "program.ls8" = .plain "program.ls8" :=
    ofString_of_toList rfl (by decide)
  have hCap : 5 ≤ ({ settings := {} } : Service).settings.maxSteps := by decide
  have hFile : printers.files "program.ls8" = .bytes printing.toUTF8 := rfl
  have hUnset : printers.environment logFilterKey = none := rfl
  obtain ⟨hCall, plain, dumping, hInvoked, hDumped, hAgrees⟩ :=
    front_ends_agree hPath hPlain hFile hUnset hCap (some true) ⟨.epoch, "a", "a", "a"⟩
  exact ⟨hPath, hPlain, hFile, hUnset, hCap, hCall, plain, dumping, hInvoked, hDumped,
    hAgrees _ hCall⟩

end CommandLine.Emulator

end Ls8
