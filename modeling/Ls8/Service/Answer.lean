import Ls8.Http.Message
import Ls8.Session
import Ls8.Snapshot.Document

/-!
# Answers

What a handled request is answered with.

* `Answer`: the data of each kind of call, or the problem that prevents it.
* `Answer.status`, `Answer.response`: the answer as a response.
-/

namespace Ls8.Service

/-- The outcome of running a program once. -/
structure RunReport where
  runId : String
  output : List String
  stepsExecuted : Nat
  halted : Bool
  fault : Option Fault
  finalState : MachineState
  deriving DecidableEq

/-- The outcome of executing some instructions in a session. -/
structure ExecutionReport where
  stepsExecuted : Nat
  halted : Bool
  fault : Option Fault
  output : List String
  finalState : MachineState
  deriving DecidableEq

structure SessionState where
  id : String
  createdAt : Timestamp
  output : List String
  machine : MachineState
  deriving DecidableEq

structure SnapshotInfo where
  id : String
  machineId : String
  createdAt : Timestamp
  sizeBytes : UInt64
  deriving DecidableEq

inductive Problem where
  | badImage (error : ImageError)
  | noSession
  /-- There is no such snapshot, or it is of another session. -/
  | noSnapshot
  | badWindow (fault : Fault)
  | badSnapshot (error : SnapshotError)
  deriving DecidableEq, Repr

inductive Answer where
  | ran (report : RunReport)
  | session (state : SessionState)
  | executed (report : ExecutionReport)
  | cells (address : Nat) (data : List UInt8)
  | captured (info : SnapshotInfo)
  | sessions (states : List SessionState)
  | deleted (id : String)
  | page (text : String)
  | refused (problem : Problem)
  deriving DecidableEq

namespace Problem

def status : Problem → Nat
  | badImage _ | badWindow _ => 400
  | noSession | noSnapshot => 404
  | badSnapshot _ => 500

def message : Problem → String
  | badImage error => error.message
  | noSession => "Machine not found"
  | noSnapshot => "Snapshot not found for this machine"
  | badWindow fault => fault.message
  | badSnapshot error => error.message

end Problem

/-! ## Views of sessions and snapshots -/

def SessionState.ofSession (id : String) (session : Session) : SessionState where
  id := id
  createdAt := session.createdAt
  output := session.output
  machine := .capture session.machine

def ExecutionReport.ofProgress (progress : Session.Progress) : ExecutionReport where
  stepsExecuted := progress.executed
  halted := progress.session.machine.halted
  fault := progress.fault
  output := progress.session.output
  finalState := .capture progress.session.machine

def SnapshotInfo.ofSnapshot (snapshot : Snapshot) : SnapshotInfo where
  id := snapshot.id
  machineId := snapshot.machineId
  createdAt := snapshot.createdAt
  sizeBytes := snapshot.sizeBytes

/-! ## JSON -/

def linesToJson (lines : List String) : Json := .array (lines.map .string)

def faultToJson (fault : Option Fault) : Json :=
  .ofOption (fun fault => .string fault.message) fault

def RunReport.toJson (report : RunReport) : Json :=
  .object [
    ("run_id", .string report.runId),
    ("output", linesToJson report.output),
    ("steps_executed", .natural report.stepsExecuted),
    ("halted", .bool report.halted),
    ("fault", faultToJson report.fault),
    ("final_state", report.finalState.toJson)]

def ExecutionReport.toJson (report : ExecutionReport) : Json :=
  .object [
    ("steps_executed", .natural report.stepsExecuted),
    ("halted", .bool report.halted),
    ("fault", faultToJson report.fault),
    ("output", linesToJson report.output),
    ("final_state", report.finalState.toJson)]

def SessionState.toJson (state : SessionState) : Json :=
  .object [
    ("id", .string state.id),
    ("created_at", state.createdAt.toJson),
    ("output", linesToJson state.output),
    ("cpu", state.machine.toJson)]

def SnapshotInfo.toJson (info : SnapshotInfo) : Json :=
  .object [
    ("id", .string info.id),
    ("machine_id", .string info.machineId),
    ("created_at", info.createdAt.toJson),
    ("size_bytes", .natural info.sizeBytes.toNat)]

namespace Answer

def status : Answer → Nat
  | refused problem => problem.status
  | _ => 200

def success (data : Json) : Json :=
  .object [("success", .bool true), ("data", data), ("error", .null)]

def failure (message : String) : Json :=
  .object [("success", .bool false), ("data", .null), ("error", .string message)]

def response (answer : Answer) : Http.Response :=
  match answer with
  | ran report => .ofJson 200 (success report.toJson)
  | session state => .ofJson 200 (success state.toJson)
  | executed report => .ofJson 200 (success report.toJson)
  | cells address data =>
    .ofJson 200 (success (.object [("address", .natural address), ("data", .ofBytes data)]))
  | captured info => .ofJson 200 (success info.toJson)
  | sessions states => .ofJson 200 (success (.array (states.map SessionState.toJson)))
  | deleted id => .ofJson 200 (success (.string ("Machine " ++ id ++ " deleted")))
  | page text => .ofText 200 "text/plain; version=0.0.4" text
  | refused problem => .ofJson problem.status (failure problem.message)

end Answer

end Ls8.Service
