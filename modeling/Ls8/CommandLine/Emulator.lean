import Ls8.CommandLine.Arguments
import Ls8.Execution
import Ls8.Image
import Ls8.Json.Writer
import Ls8.Snapshot.Document

/-!
# The emulator's command

`Emulator.emulate?` runs an image file to its end, printing what the program prints; it may
log the state before every instruction, and print the machine afterwards. `Emulator.invoke?`
is the whole command, from its arguments to its exit code. A program that runs on forever leaves
neither.
-/

namespace Ls8.CommandLine

/-- What a command leaves: its exit code, and what it wrote to its output and to its error
output. -/
structure Exit where
  code : Nat
  output : String := ""
  errors : String := ""
  deriving DecidableEq, Repr

def logFilterKey : String := "RUST_LOG"

/-- The log's filter: that of the environment if it names one, else the given one. -/
def logFilter (lookup : String → Option String) (standard : LogFilter) : LogFilter :=
  ((lookup logFilterKey).bind LogFilter.ofName?).getD standard

def colourKey : String := "CLICOLOR_FORCE"

/-- Whether the log is to be coloured: any value of the variable says so, except 0. -/
def wantsColour (lookup : String → Option String) : Bool := (lookup colourKey).any (· != "0")

namespace Emulator

/-- What the command takes from the world outside, besides its arguments. -/
structure Surroundings where
  environment : String → Option String
  files : String → Image.Contents
  now : Timestamp
  id : String

inductive Failure where
  | image (error : ImageError)
  | machine (fault : Fault)
  deriving DecidableEq, Repr

namespace Failure

def code : Failure → Nat
  | image (.notFound _) => 2
  | _ => 1

def line : Failure → String
  | image (.notFound _) => "File not found\n"
  | image error => "error: " ++ error.message ++ "\n"
  | machine fault => "error: " ++ fault.message ++ "\n"

def record (log : Log) : Failure → Log
  | image (.notFound path) => log.write .debug .emulatorCommand fun _ => "no image at " ++ path
  | _ => log

end Failure

/-- The outcome of an emulation: a failure or the machine at its end, what was printed, and
the log. -/
structure Emulation where
  result : Except Failure Machine
  console : Console
  log : Log

def config (arguments : Arguments) : Config where
  aluMode := if arguments.corrected then .corrected else .compatible
  maxSteps := arguments.maxSteps

def log (arguments : Arguments) (environment : String → Option String) : Log where
  filter := logFilter environment (.upTo (if arguments.trace then .trace else .warn))

def Emulation.ofResult : EStateM.Result Fault Rig UInt64 → Emulation
  | .ok _ ⟨machine, host⟩ =>
    { result := .ok machine, console := host.console, log := host.instruments.log }
  | .error fault ⟨_, host⟩ =>
    { result := .error (.machine fault)
      console := host.console
      log := host.instruments.log }

def emulate? (arguments : Arguments) (log : Log) (contents : Image.Contents) : Option Emulation :=
  match Image.ofFile arguments.image contents with
  | .error error => some { result := .error (.image error), console := {}, log }
  | .ok image =>
    match (Machine.new (config arguments)).load image with
    | .error fault => some { result := .error (.machine fault), console := {}, log }
    | .ok machine =>
      (Machine.run? { machine, host := { instruments := { log } } }).map Emulation.ofResult

/-- The name of the machine in a printed snapshot. -/
def machineId : String := "cli"

def dump (surroundings : Surroundings) (machine : Machine) : String :=
  (Snapshot.capture surroundings.id machineId surroundings.now machine).toJson.pretty ++ "\n"

/-- What is printed on a console, which holds ASCII. -/
def printed (console : Console) : String :=
  String.ofList (console.written.data.toList.map fun byte => .ofNat byte.toNat)

/-- What an emulation leaves. What was printed before a failure stays; the machine is printed only
if there was none. -/
def exit (surroundings : Surroundings) (arguments : Arguments) (emulation : Emulation) : Exit :=
  let coloured := wantsColour surroundings.environment
  match emulation.result with
  | .ok machine =>
    { code := 0
      output := printed emulation.console
        ++ if arguments.dumpState then dump surroundings machine else ""
      errors := emulation.log.text coloured }
  | .error failure =>
    { code := failure.code
      output := printed emulation.console
      errors := (failure.record emulation.log).text coloured ++ failure.line }

/-- Runs the image that the arguments name. -/
def run? (surroundings : Surroundings) (arguments : Arguments) : Option Exit :=
  let log := log arguments surroundings.environment
  (emulate? arguments log (surroundings.files arguments.image)).map (exit surroundings arguments)

/-! ## The whole command -/

def version : String := "ls8_emulator 0.1.0\n"

def usage : String := "Usage: ls8 [OPTIONS] <IMAGE>"

def help : String :=
  "LS-8 emulator: run an assembled bytecode image\n\n" ++ usage ++ "\n\n"
    ++ "Arguments:\n"
    ++ "  <IMAGE>  Path to the .ls8 image\n\n"
    ++ "Options:\n"
    ++ "      --trace          Log a trace line before every instruction\n"
    ++ "      --corrected      Use conventional SUB and bitwise semantics\n"
    ++ "      --max-steps <N>  Give up after this many instructions\n"
    ++ "      --dump-state     Print the final machine state as JSON after the program output\n"
    ++ "  -h, --help           Print help\n"
    ++ "  -V, --version        Print version\n"

def invoke? (surroundings : Surroundings) (arguments : List String) : Option Exit :=
  match Arguments.parse arguments with
  | .emulate arguments => run? surroundings arguments
  | .help => some { code := 0, output := help }
  | .version => some { code := 0, output := version }
  | .usageError => some { code := 1, errors := "error: invalid arguments\n\n" ++ usage ++ "\n" }

end Emulator

end Ls8.CommandLine
