import Ls8.Http.Cors
import Ls8.Service.Answer
import Ls8.Service.Metrics
import Ls8.Service.Registry
import Ls8.Service.Settings

/-!
# The service

Clients run programs once, or keep sessions that they step through, look into, and return to
snapshots of.

* `Service`: its settings, the live sessions, their snapshots, the counts and the log.
* `Service.perform`: carries out a call.
* `Service.answer`: the same, and counts the request.
* `Service.handle`: the response to a request. A request that makes no call changes nothing.
-/

namespace Ls8

structure Service where
  settings : Service.Settings
  sessions : Service.Registry Session := {}
  snapshots : Service.Registry Snapshot := {}
  metrics : Service.Metrics := {}
  log : Log := {}

namespace Service

/-- What a request may use of the world outside: the time, and an id for whatever it makes.
No id is handed out twice. -/
structure Supply where
  now : Timestamp
  sessionId : String
  snapshotId : String
  runId : String

/-- The limit of a run that may be asked for with a limit of its own. It is never above that of
the settings. -/
def Settings.runLimit (settings : Settings) : (asked : Option UInt64) → UInt64
  | none => settings.maxSteps
  | some asked => min asked settings.maxSteps

/-- The configuration of a machine as asked for. Every machine has a step limit. -/
def Settings.machineConfig (settings : Settings) (corrected : Option Bool)
    (maxSteps : Option UInt64) : Config where
  aluMode := if corrected.getD false then .corrected else .compatible
  maxSteps := some (settings.runLimit maxSteps)

/-- The greatest number of steps that one call may ask a session for. -/
def Settings.executeLimit (settings : Settings) : Nat :=
  min settings.maxSteps.toNat (stepsBound - 1)

/-- The number of steps that a call lets a session execute. -/
def Settings.allowance (settings : Settings) : Call → Nat
  | .step _ => 1
  | .execute _ request => min request.steps settings.executeLimit
  | _ => 0

def instruments (service : Service) : Instruments := ⟨service.metrics.usage, service.log⟩

def withInstruments (service : Service) (instruments : Instruments) : Service :=
  { service with
    metrics := { service.metrics with usage := instruments.usage }
    log := instruments.log }

def inform (service : Service) (message : Unit → String) : Service :=
  { service with log := service.log.write .info .service message }

def recordSessions (service : Service) : Service :=
  { service with metrics := { service.metrics with activeSessions := service.sessions.size } }

/-! ## Calls -/

def runOnce (service : Service) (supply : Supply) (request : RunRequest) : Service × Answer :=
  let config := service.settings.machineConfig request.corrected request.maxSteps
  match Session.ofImage request.image config supply.now with
  | .error error => (service, .refused (.badImage error))
  | .ok session =>
    let limit := service.settings.runLimit request.maxSteps
    let outcome := session.runWithin limit service.instruments
    let machine := outcome.session.machine
    let fault := match outcome.result with
      | .ok _ => none
      | .error fault => some fault
    let service := (service.withInstruments outcome.instruments).inform fun _ =>
      s!"run {supply.runId} finished after {machine.steps} steps" ++ match fault with
        | none => ""
        | some fault => " (" ++ fault.message ++ ")"
    (service, .ran {
      runId := supply.runId
      output := outcome.session.output
      stepsExecuted := machine.steps.toNat
      halted := machine.halted
      fault
      finalState := .capture machine })

def create (service : Service) (supply : Supply) (request : CreateRequest) : Service × Answer :=
  let config := service.settings.machineConfig request.corrected none
  match Session.ofImage request.image config supply.now with
  | .error error => (service, .refused (.badImage error))
  | .ok session =>
    let id := supply.sessionId
    let service := { service with sessions := service.sessions.put id session }.recordSessions
    (service.inform fun _ => "created machine " ++ id, .session (.ofSession id session))

/-- Does something with a live session. -/
def withSession (service : Service) (id : String) (act : Session → Service × Answer) :
    Service × Answer :=
  match service.sessions.find? id with
  | none => (service, .refused .noSession)
  | some session => act session

def inspect (service : Service) (id : String) : Service × Answer :=
  service.withSession id fun session => (service, .session (.ofSession id session))

def execute (service : Service) (id : String) (count : Nat) : Service × Answer :=
  service.withSession id fun session =>
    let progress := session.execute count service.instruments
    let service := service.withInstruments progress.instruments
    ({ service with sessions := service.sessions.put id progress.session },
      .executed (.ofProgress progress))

/-- The number of addresses that a window spans. Addresses are below 2^64 - 1, and a window
ends there at the latest. -/
def MemoryWindow.span (window : MemoryWindow) : Nat :=
  min (window.address + window.length.getD 1) (countBound - 1) - window.address

def readMemory (service : Service) (id : String) (window : MemoryWindow) : Service × Answer :=
  service.withSession id fun session =>
    match session.machine.memory.readRange window.address window.span with
    | .ok data => (service, .cells window.address data)
    | .error fault => (service, .refused (.badWindow fault))

def capture (service : Service) (supply : Supply) (id : String) : Service × Answer :=
  service.withSession id fun session =>
    let snapshot := Snapshot.capture supply.snapshotId id supply.now session.machine
    ({ service with snapshots := service.snapshots.put snapshot.id snapshot },
      .captured (.ofSnapshot snapshot))

/-- Returns a session to one of its own snapshots. The snapshot is looked for before the
session. -/
def restore (service : Service) (id : String) (request : RestoreRequest) : Service × Answer :=
  match (service.snapshots.find? request.snapshotId).filter (·.machineId == id) with
  | none => (service, .refused .noSnapshot)
  | some snapshot =>
    service.withSession id fun session =>
      match Session.restore snapshot session with
      | .ok () session =>
        ({ service with sessions := service.sessions.put id session },
          .session (.ofSession id session))
      | .error error session =>
        ({ service with sessions := service.sessions.put id session },
          .refused (.badSnapshot error))

def list (service : Service) : Service × Answer :=
  (service, .sessions (service.sessions.entries.map fun (id, session) => .ofSession id session))

/-- Ends a session and forgets its snapshots. -/
def delete (service : Service) (id : String) : Service × Answer :=
  service.withSession id fun _ =>
    let service := { service with
      sessions := service.sessions.erase id
      snapshots := service.snapshots.filter fun _ snapshot => snapshot.machineId != id }
    (service.recordSessions.inform fun _ => "deleted machine " ++ id, .deleted id)

def perform (service : Service) (supply : Supply) (call : Call) : Service × Answer :=
  match call with
  | .run request => service.runOnce supply request
  | .create request => service.create supply request
  | .inspect id => service.inspect id
  | .step id | .execute id _ => service.execute id (service.settings.allowance call)
  | .readMemory id window => service.readMemory id window
  | .snapshot id => service.capture supply id
  | .restore id request => service.restore id request
  | .list => service.list
  | .delete id => service.delete id
  | .metrics => (service, .page service.metrics.page)

/-- Carries out a call and counts the request, which its own answer does not show yet. -/
def answer (service : Service) (supply : Supply) (call : Call) : Service × Answer :=
  let (service, answer) := service.perform supply call
  ({ service with metrics := service.metrics.recordRequest call.route answer.status }, answer)

/-! ## Requests -/

def policy : Http.Cors.Policy where
  methods := ["DELETE", "GET", "POST"]
  headers := ["content-type"]

def callOf (request : Http.Request) : Except Http.Rejection Call :=
  Route.dispatch request .notFound Route.all

/-- The response to a request. Only the answer to a call is marked for another origin. -/
def handle (service : Service) (supply : Supply) (request : Http.Request) :
    Service × Http.Response :=
  match Http.Cors.check policy request with
  | .error what => (service, (Http.Rejection.forbidden what).response)
  | .ok (.preflight origin) => (service, Http.Cors.preflight policy origin)
  | .ok kind =>
    match callOf request with
    | .error rejection => (service, rejection.response)
    | .ok call =>
      let (service, answer) := service.answer supply call
      let response := answer.response
      match kind with
      | .simple origin => (service, Http.Cors.expose origin response)
      | _ => (service, response)

end Service

end Ls8
