import Ls8.Text.Unsigned

/-!
# Arguments of the emulator

`Arguments.parse` reads the command line from left to right: flags, the option `--max-steps`
with its value, and the path of one image. The first argument that asks for help or for the
version, or that cannot be understood, decides.
-/

namespace Ls8.CommandLine

structure Arguments where
  image : String
  trace : Bool := false
  corrected : Bool := false
  maxSteps : Option UInt64 := none
  dumpState : Bool := false
  deriving DecidableEq, Repr

inductive Request where
  | emulate (arguments : Arguments)
  | help
  | version
  | usageError
  deriving DecidableEq, Repr

structure Partial where
  image : Option String := none
  trace : Bool := false
  corrected : Bool := false
  maxSteps : Option UInt64 := none
  dumpState : Bool := false

namespace Partial

/-- The path of the image, which may be given only once and is not empty. -/
def withImage? (read : Partial) (path : String) : Option Partial :=
  if read.image.isNone && path != "" then some { read with image := some path } else none

/-- The value of `--max-steps`, which may be given only once. -/
def withMaxSteps? (read : Partial) (value : List Char) : Option Partial :=
  match read.maxSteps, Text.word? value with
  | none, some limit => some { read with maxSteps := some limit }
  | _, _ => none

def withFlag? (read : Partial) (name : String) : Option Partial :=
  if name = "trace" && !read.trace then some { read with trace := true }
  else if name = "corrected" && !read.corrected then some { read with corrected := true }
  else if name = "dump-state" && !read.dumpState then some { read with dumpState := true }
  else none

def finish (read : Partial) : Request :=
  match read.image with
  | none => .usageError
  | some image =>
    .emulate {
      image
      trace := read.trace
      corrected := read.corrected
      maxSteps := read.maxSteps
      dumpState := read.dumpState }

end Partial

/-- The kinds of arguments, before a `--` alone. -/
inductive Argument where
  | endOfOptions
  /-- `--name` or `--name=value`. -/
  | long (name : String) (value : Option (List Char))
  | short (letters : List Char)
  /-- Anything else, a dash alone included. -/
  | plain (text : String)
  deriving DecidableEq, Repr

def Argument.ofString (argument : String) : Argument :=
  match argument.toList with
  | ['-', '-'] => .endOfOptions
  | '-' :: '-' :: rest =>
    let name := rest.takeWhile (· != '=')
    match rest.drop name.length with
    | [] => .long (String.ofList name) none
    | _ :: value => .long (String.ofList name) (some value)
  | '-' :: letter :: rest => .short (letter :: rest)
  | _ => .plain argument

/-- Goes on with what was read, if it could be. -/
def continueWith (read : Option Partial) (next : Partial → Request) : Request :=
  match read with
  | some read => next read
  | none => .usageError

/-- Reads the paths after a `--` alone. -/
def parsePaths (read : Partial) : List String → Request
  | [] => read.finish
  | path :: rest => continueWith (read.withImage? path) fun read => parsePaths read rest

def parseFrom (read : Partial) : List String → Request
  | [] => read.finish
  | argument :: rest =>
    match Argument.ofString argument with
    | .endOfOptions => parsePaths read rest
    | .plain path => continueWith (read.withImage? path) fun read => parseFrom read rest
    | .short ('h' :: _) => .help
    | .short ('V' :: _) => .version
    | .short _ => .usageError
    | .long "help" none => .help
    | .long "version" none => .version
    | .long "max-steps" (some value) =>
      continueWith (read.withMaxSteps? value) fun read => parseFrom read rest
    | .long "max-steps" none =>
      match rest with
      | value :: rest =>
        match Argument.ofString value with
        | .plain value =>
          continueWith (read.withMaxSteps? value.toList) fun read => parseFrom read rest
        | _ => .usageError
      | [] => .usageError
    | .long name none => continueWith (read.withFlag? name) fun read => parseFrom read rest
    | .long _ (some _) => .usageError

def Arguments.parse (arguments : List String) : Request := parseFrom {} arguments

end Ls8.CommandLine
