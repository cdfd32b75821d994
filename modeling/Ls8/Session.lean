import Ls8.Execution
import Ls8.Image
import Ls8.Snapshot

/-!
# Sessions

A session is a machine with an image loaded and the console output of its instructions, of
which it keeps the latest 64 KiB.

* `Session.ofImage`: a new session.
* `Session.trim`: drops lines from the front of an output that is too long.
* `Session.step`, `Session.run?`, `Session.execute`: let the machine execute; the output is
  trimmed after each step or run. A run need not come to an end.
* `Session.runWithin`: the run of a session whose limit is known.
* `Session.output`: the kept lines.
-/

namespace Ls8

/-- A machine and what it has printed. -/
structure Session where
  machine : Machine
  createdAt : Timestamp
  /-- The kept output. -/
  console : ByteArray := .empty

/-- What an action on a session gives: its result, the session afterwards, and the counts and
log. -/
structure Session.Outcome (α : Type) where
  result : Except Fault α
  session : Session
  instruments : Instruments

/-- What became of a request for some instructions: how many were executed, and the fault
that stopped them, if one did. -/
structure Session.Progress where
  executed : Nat
  fault : Option Fault
  session : Session
  instruments : Instruments

namespace Session

def ofImage (source : String) (config : Config) (createdAt : Timestamp) :
    Except ImageError Session := do
  let image ← Image.parse source
  match (Machine.new config).load image with
  | .ok machine => return { machine, createdAt }
  | .error _ => throw .tooLarge

/-! ## Output -/

/-- The number of bytes of output that a session keeps. -/
def consoleLimit : Nat := 64 * 1024

/-- The place after the first newline at or after `start`, within the next `fuel` bytes; the
end if there is none. -/
def afterNewline (text : ByteArray) (fuel start : Nat) : Nat :=
  match fuel with
  | 0 => text.size
  | fuel + 1 =>
    if inside : start < text.size then
      if text[start] = Console.newline then start + 1 else afterNewline text fuel (start + 1)
    else text.size

/-- The output without the lines at its front that are in excess of `limit` bytes. The cut is
after the first newline at or past the place where the excess ends. -/
def trim (limit : Nat) (text : ByteArray) : ByteArray :=
  if text.size ≤ limit then text
  else
    let cut := afterNewline text text.size (text.size - limit)
    text.extract cut text.size

/-- The lines of a text in which a newline ends every line, `line` being the bytes read of the
first one, last first. -/
def linesFrom (line : List Char) : List UInt8 → List String
  | [] => if line.isEmpty then [] else [String.ofList line.reverse]
  | byte :: rest =>
    if byte = Console.newline then String.ofList line.reverse :: linesFrom [] rest
    else linesFrom (.ofNat byte.toNat :: line) rest

/-- The kept lines, oldest first. The output is ASCII, so that its bytes are its characters. -/
def output (session : Session) : List String := linesFrom [] session.console.data.toList

/-! ## Execution -/

/-- What an action of a machine comes to in a session: its result, and the rig that it left, whose
output is trimmed. -/
def Outcome.ofRig {α : Type} (createdAt : Timestamp) (result : Except Fault α) (rig : Rig) :
    Outcome α :=
  match rig with
  | ⟨machine, ⟨⟨console, _⟩, instruments⟩⟩ =>
    ⟨result, ⟨machine, createdAt, trim consoleLimit console⟩, instruments⟩

def Outcome.ofResult {α : Type} (createdAt : Timestamp) : EStateM.Result Fault Rig α → Outcome α
  | .ok value rig => .ofRig createdAt (.ok value) rig
  | .error fault rig => .ofRig createdAt (.error fault) rig

/-- Lets the machine act with the session's output as its console, which never fails. -/
def perform {α : Type} (session : Session) (instruments : Instruments)
    (act : Action Fault Rig α) : Outcome α :=
  match session with
  | ⟨machine, createdAt, console⟩ =>
    .ofResult createdAt (act ⟨machine, ⟨⟨console, none⟩, instruments⟩⟩)

def step (session : Session) (instruments : Instruments) : Outcome Unit :=
  session.perform instruments Machine.step

/-- There is no outcome if the run goes on forever. -/
def run? (session : Session) (instruments : Instruments) : Option (Outcome UInt64) :=
  match session with
  | ⟨machine, createdAt, console⟩ =>
    (Machine.run? ⟨machine, ⟨⟨console, none⟩, instruments⟩⟩).map (.ofResult createdAt)

def runWithin (limit : UInt64) (session : Session) (instruments : Instruments) : Outcome UInt64 :=
  session.perform instruments (Machine.runWithin limit)

/-- Up to `count` more steps after `executed` others. A machine that has halted, or a fault,
ends them. -/
def executeFrom (executed count : Nat) (session : Session) (instruments : Instruments) :
    Progress :=
  match count with
  | 0 => { executed, fault := none, session, instruments }
  | count + 1 =>
    if session.machine.halted then { executed, fault := none, session, instruments }
    else
      match session.step instruments with
      | ⟨.ok (), session, instruments⟩ => executeFrom (executed + 1) count session instruments
      | ⟨.error fault, session, instruments⟩ =>
        { executed, fault := some fault, session, instruments }

def execute (count : Nat) (session : Session) (instruments : Instruments) : Progress :=
  executeFrom 0 count session instruments

/-- Puts the session's machine into the state of a snapshot. The output stays. -/
def restore (snapshot : Snapshot) : Action SnapshotError Session Unit := fun session =>
  match session with
  | ⟨machine, createdAt, console⟩ =>
    match snapshot.restore machine with
    | .ok () machine => .ok () ⟨machine, createdAt, console⟩
    | .error error machine => .error error ⟨machine, createdAt, console⟩

end Session

end Ls8
