import Ls8.CommandLine.Emulator
import Ls8.CommandLine.Service
import Std.Time.DateTime.PlainDateTime
import Std.Time.DateTime.Timestamp

/-!
# The programs

What the commands take from the system they run on, and how they leave it. The file is one
program with two names: under the name `ls8-server` it is the service's command, else the
emulator's.
-/

namespace Ls8.CommandLine

open Service (Settings)

def readEnvironment : IO (String → Option String) := do
  let keys := [logFilterKey, colourKey, Settings.bindAddressKey, Settings.maxStepsKey]
  let found ← keys.mapM fun key => return (key, ← IO.getEnv key)
  return fun key => (found.lookup key).join

def systemCause : IO.Error → String
  | .inappropriateType _ code details | .permissionDenied _ code details
  | .invalidArgument _ code details | .noFileOrDirectory _ code details
  | .resourceExhausted _ code details => details ++ s!" (os error {code})"
  | .hardwareFault code details | .otherError code details =>
    details ++ s!" (os error {code})"
  | error => toString error

def readContents (path : String) : IO Image.Contents := do
  try
    let file ← IO.FS.Handle.mk path .read
    return .bytes (← file.readBinToEnd)
  catch
    | .noFileOrDirectory .. => return .missing
    | error => return .failed (systemCause error)

def readClock : IO Timestamp := do
  let now ← Std.Time.Timestamp.now
  let wall := Std.Time.WallTime.ofNanoseconds now.toNanosecondsSinceUnixEpoch
  let time := Std.Time.PlainDateTime.ofWallTime wall
  let digits (width : Nat) (value : Int) := String.ofList (Radix.digits 10 width value.toNat)
  let date := "-".intercalate
    [digits 4 time.year.toInt, digits 2 time.month.val, digits 2 time.day.val]
  let clock := ":".intercalate
    [digits 2 time.hour.val, digits 2 time.minute.val, digits 2 time.second.val]
  let text := date ++ "T" ++ clock ++ "." ++ digits 9 time.nanosecond.val ++ "Z"
  return (Timestamp.parse? text).getD .epoch

/-- A random id: 32 hexadecimal digits in five groups, marked as random. -/
def makeId : IO String := do
  let group (width least greatest : Nat) : IO String :=
    return (Radix.hex width (← IO.rand least greatest)).map Char.toLower
  let groups ← [
    group 8 0 0xFFFFFFFF, group 4 0 0xFFFF, group 4 0x4000 0x4FFF, group 4 0x8000 0xBFFF,
    group 12 0 0xFFFFFFFFFFFF].mapM id
  return "-".intercalate groups

def runEmulator (arguments : List String) : IO Exit := do
  let contents ← match Arguments.parse arguments with
    | .emulate request => readContents request.image
    | _ => pure .missing
  let surroundings : Emulator.Surroundings := {
    environment := ← readEnvironment
    files := fun _ => contents
    now := ← readClock
    id := ← makeId }
  match Emulator.invoke? surroundings arguments with
  | some exit => return exit
  -- Nothing gets here: whoever waits for a run without end waits forever.
  | none => throw (.userError "the program does not end")

/-- The service's command. There is no network to listen on. -/
def runService : IO Exit := do
  match ServiceCommand.start (← readEnvironment) with
  | .error exit => return exit
  | .ok settings =>
    return { code := 1, errors := "error: cannot listen on " ++ settings.bindAddress.text ++ "\n" }

/-- Writes what a command leaves, and gives its exit code to the system. -/
def Exit.report (exit : Exit) : IO UInt32 := do
  IO.print exit.output
  IO.eprint exit.errors
  return exit.code.toUInt32

end Ls8.CommandLine

def main (arguments : List String) : IO UInt32 := do
  let isService := (← IO.appPath).fileName == some "ls8-server"
  let exit ←
    if isService then Ls8.CommandLine.runService else Ls8.CommandLine.runEmulator arguments
  exit.report
