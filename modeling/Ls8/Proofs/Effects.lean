import Ls8.Proofs.Handling
import Ls8.Proofs.Snapshot

/-!
# What calls do

`Effect` lists what a call can do to the sessions of a service and to their snapshots, together
with its answer. `perform_effect`: no call does anything else. A call about one session is refused
if the session is not there (`perform_of_absent`), and else not for that reason
(`status_of_present`). A session is restored from a snapshot of its own
(`restore_of_captured`), and from no other (`restore_of_missing`).
-/

namespace Ls8.Service

/-- What calls about sessions depend on and change. -/
structure Holdings where
  settings : Settings
  sessions : Registry Session
  snapshots : Registry Snapshot
  /-- The number of sessions that the metrics show. -/
  shown : Nat

def holdings (service : Service) : Holdings :=
  ⟨service.settings, service.sessions, service.snapshots, service.metrics.activeSessions⟩

/-- A call that changes neither sessions nor snapshots, however it is answered. -/
def Call.looksOnly : Call → Bool
  | .run _ | .inspect _ | .readMemory _ _ | .list | .metrics => true
  | .create _ | .step _ | .execute _ _ | .snapshot _ | .restore _ _ | .delete _ => false

/-- The session that a call lets execute instructions. -/
def Call.steps? : Call → Option String
  | .step id | .execute id _ => some id
  | _ => none

section

variable (service : Service) (supply : Supply)

/-- A call, its answer, and what the service holds afterwards. -/
inductive Effect : Call → Answer → Holdings → Prop where
  | created {request : CreateRequest} {session : Session}
      (made : Session.ofImage request.image
        (service.settings.machineConfig request.corrected none) supply.now = .ok session) :
    Effect (.create request) (.session (.ofSession supply.sessionId session))
      { service.holdings with
        sessions := service.sessions.put supply.sessionId session
        shown := (service.sessions.put supply.sessionId session).size }
  | executed {call : Call} {id : String} {session : Session} (asks : call.steps? = some id)
      (found : service.sessions.find? id = some session) :
    Effect call (.executed (.ofProgress
        (session.execute (service.settings.allowance call) service.instruments)))
      { service.holdings with
        sessions := service.sessions.put id
          (session.execute (service.settings.allowance call) service.instruments).session }
  | captured {id : String} {session : Session}
      (found : service.sessions.find? id = some session) :
    Effect (.snapshot id)
      (.captured (.ofSnapshot (.capture supply.snapshotId id supply.now session.machine)))
      { service.holdings with
        snapshots := service.snapshots.put supply.snapshotId
          (.capture supply.snapshotId id supply.now session.machine) }
  | restored {id : String} {request : RestoreRequest} {snapshot : Snapshot}
      {session restored : Session}
      (stored : service.snapshots.find? request.snapshotId = some snapshot)
      (own : snapshot.machineId = id) (found : service.sessions.find? id = some session)
      (succeeds : Session.restore snapshot session = .ok () restored) :
    Effect (.restore id request) (.session (.ofSession id restored))
      { service.holdings with sessions := service.sessions.put id restored }
  | deleted {id : String} {session : Session}
      (found : service.sessions.find? id = some session) :
    Effect (.delete id) (.deleted id)
      { service.holdings with
        sessions := service.sessions.erase id
        snapshots := service.snapshots.filter fun _ snapshot => snapshot.machineId != id
        shown := (service.sessions.erase id).size }
  | kept {call : Call} {answer : Answer}
      (quiet : call.looksOnly ∨ ∃ problem, answer = .refused problem) :
    Effect call answer service.holdings

end

/-- A call that is refused leaves everything as it is. -/
theorem Effect.holdings_of_refused {service : Service} {supply : Supply} {call : Call}
    {answer : Answer} {held : Holdings} (h : Effect service supply call answer held)
    (hStatus : answer.status ≠ 200) : held = service.holdings := by
  cases h with
  | kept quiet => rfl
  | _ => exact (hStatus rfl).elim

theorem Effect.settings {service : Service} {supply : Supply} {call : Call} {answer : Answer}
    {held : Holdings} (h : Effect service supply call answer held) :
    held.settings = service.settings := by
  cases h <;> rfl

/-! ## Sessions that are there, and sessions that are not -/

section

variable {service : Service} {id : String}

theorem withSession_of_some {session : Session} (h : service.sessions.find? id = some session)
    (act : Session → Service × Answer) : service.withSession id act = act session := by
  simp only [withSession, h]

theorem withSession_of_none (h : service.sessions.find? id = none)
    (act : Session → Service × Answer) :
    service.withSession id act = (service, .refused .noSession) := by
  simp only [withSession, h]

/-- What holds of a session's answer and of the refusal holds of the outcome. -/
theorem withSession_cases {motive : Service × Answer → Prop} {act : Session → Service × Answer}
    (absent : motive (service, .refused .noSession))
    (present : ∀ session, service.sessions.find? id = some session → motive (act session)) :
    motive (service.withSession id act) := by
  cases hFound : service.sessions.find? id with
  | none =>
    rw [withSession_of_none hFound]
    exact absent
  | some session =>
    rw [withSession_of_some hFound]
    exact present session hFound

theorem create_of_rejected {supply : Supply} {request : CreateRequest} {error : ImageError}
    (h : Session.ofImage request.image (service.settings.machineConfig request.corrected none)
      supply.now = .error error) :
    service.create supply request = (service, .refused (.badImage error)) := by
  simp only [create, h]

theorem create_of_made {supply : Supply} {request : CreateRequest} {session : Session}
    (h : Session.ofImage request.image (service.settings.machineConfig request.corrected none)
      supply.now = .ok session) :
    (service.create supply request).2 = .session (.ofSession supply.sessionId session) ∧
      (service.create supply request).1.holdings =
        { service.holdings with
          sessions := service.sessions.put supply.sessionId session
          shown := (service.sessions.put supply.sessionId session).size } := by
  constructor
  · simp only [create, h]
  · simp only [create, h]
    rfl

theorem execute_of_some {session : Session} (h : service.sessions.find? id = some session)
    (count : Nat) :
    service.execute id count =
      ({ service.withInstruments (session.execute count service.instruments).instruments with
          sessions := service.sessions.put id
            (session.execute count service.instruments).session },
        .executed (.ofProgress (session.execute count service.instruments))) :=
  withSession_of_some h _

theorem perform_of_steps {call : Call} (h : call.steps? = some id) (supply : Supply) :
    service.perform supply call = service.execute id (service.settings.allowance call) := by
  cases call with
  | step _ | execute _ _ =>
    cases h
    rfl
  | _ => cases h

theorem capture_of_some {session : Session} (h : service.sessions.find? id = some session)
    (supply : Supply) :
    service.capture supply id =
      ({ service with
          snapshots := service.snapshots.put supply.snapshotId
            (.capture supply.snapshotId id supply.now session.machine) },
        .captured (.ofSnapshot (.capture supply.snapshotId id supply.now session.machine))) :=
  withSession_of_some h _

/-- A call that is answered by way of a session that is not there is refused, and else has the
effect that the session gives it. -/
theorem withSession_effect {supply : Supply} {call : Call} {act : Session → Service × Answer}
    (h : ∀ session, service.sessions.find? id = some session →
      Effect service supply call (act session).2 (act session).1.holdings) :
    Effect service supply call (service.withSession id act).2
      (service.withSession id act).1.holdings :=
  withSession_cases (motive := fun outcome =>
      Effect service supply call outcome.2 outcome.1.holdings)
    (.kept (Or.inr ⟨.noSession, rfl⟩)) h

/-- A call about a session that is not there, other than one for a snapshot to be restored. -/
theorem perform_of_absent {call : Call} (hSession : call.session? = some id)
    (hOther : ∀ request, call ≠ .restore id request) (h : service.sessions.find? id = none)
    (supply : Supply) : service.perform supply call = (service, .refused .noSession) := by
  cases call with
  | run _ | create _ | list | metrics => cases hSession
  | restore _ request =>
    cases hSession
    exact (hOther request rfl).elim
  | inspect _ | step _ | execute _ _ | readMemory _ _ | snapshot _ | delete _ =>
    cases hSession
    exact withSession_of_none h _

theorem status_of_present {call : Call} {session : Session} (hSession : call.session? = some id)
    (hOther : ∀ request, call ≠ .restore id request)
    (h : service.sessions.find? id = some session) (supply : Supply) :
    (service.perform supply call).2.status ≠ 404 := by
  cases call with
  | run _ | create _ | list | metrics => cases hSession
  | restore _ request =>
    cases hSession
    exact (hOther request rfl).elim
  | inspect _ | step _ | execute _ _ | snapshot _ | delete _ =>
    cases hSession
    simp only [perform, inspect, execute, capture, delete, withSession_of_some h]
    exact nofun
  | readMemory _ window =>
    cases hSession
    simp only [perform, readMemory, withSession_of_some h]
    split <;> exact nofun

end

/-! ## Snapshots restored -/

section

variable {service : Service} {id : String} {request : RestoreRequest}

theorem restore_of_missing
    (h : ∀ snapshot, service.snapshots.find? request.snapshotId = some snapshot →
      snapshot.machineId ≠ id) :
    service.restore id request = (service, .refused .noSnapshot) := by
  have hNone : (service.snapshots.find? request.snapshotId).filter (·.machineId == id) = none := by
    rw [Option.filter_eq_none_iff]
    intro snapshot hStored
    simpa using h snapshot hStored
  simp only [restore, hNone]

/-- The machine of a session becomes the one that the snapshot was taken of. -/
theorem restore_of_captured {createdAt : Timestamp} {machine : Machine} {session : Session}
    (hStored : service.snapshots.find? request.snapshotId =
      some (.capture request.snapshotId id createdAt machine))
    (hFound : service.sessions.find? id = some session) :
    service.restore id request =
      ({ service with sessions := service.sessions.put id { session with machine } },
        .session (.ofSession id { session with machine })) := by
  have hOwn : (service.snapshots.find? request.snapshotId).filter (·.machineId == id) =
      some (.capture request.snapshotId id createdAt machine) := by
    rw [hStored]
    exact Option.filter_some_pos (by simp [Snapshot.capture])
  have hRestore : Session.restore (.capture request.snapshotId id createdAt machine) session =
      .ok () { session with machine } := by
    simp only [Session.restore, Snapshot.restore_capture]
  simp only [restore, hOwn, withSession_of_some hFound, hRestore]

end

/-! ## The effect of each call -/

section

variable (service : Service) (supply : Supply)

theorem runOnce_holdings (request : RunRequest) :
    (service.runOnce supply request).1.holdings = service.holdings := by
  unfold runOnce
  dsimp only
  split <;> rfl

theorem create_effect (request : CreateRequest) : Effect service supply (.create request)
    (service.create supply request).2 (service.create supply request).1.holdings := by
  cases hMade : Session.ofImage request.image
      (service.settings.machineConfig request.corrected none) supply.now with
  | error error =>
    rw [create_of_rejected hMade]
    exact .kept (Or.inr ⟨_, rfl⟩)
  | ok session =>
    obtain ⟨hAnswer, hHeld⟩ := create_of_made hMade
    rw [hAnswer, hHeld]
    exact .created hMade

theorem execute_effect {call : Call} {id : String} (asks : call.steps? = some id) :
    Effect service supply call (service.perform supply call).2
      (service.perform supply call).1.holdings := by
  rw [perform_of_steps asks]
  exact withSession_effect fun _ hFound => .executed asks hFound

theorem readMemory_service (id : String) (window : MemoryWindow) :
    (service.readMemory id window).1 = service := by
  unfold readMemory withSession
  split
  · rfl
  · dsimp only
    split <;> rfl

/-- A session that a snapshot fails to restore is the same as before. -/
theorem restore_error {snapshot : Snapshot} {session after : Session} {error : SnapshotError}
    (h : Session.restore snapshot session = .error error after) : after = session := by
  obtain ⟨machine, createdAt, console⟩ := session
  unfold Session.restore at h
  cases hRestore : snapshot.restore machine with
  | ok _ restored => simp [hRestore] at h
  | error error' left =>
    have hSame : left = machine := snapshot.restore_spares hRestore
    simp only [hRestore, EStateM.Result.error.injEq] at h
    rw [← h.2, hSame]

theorem restore_effect (id : String) (request : RestoreRequest) :
    Effect service supply (.restore id request) (service.restore id request).2
      (service.restore id request).1.holdings := by
  unfold restore
  cases hStored : (service.snapshots.find? request.snapshotId).filter (·.machineId == id) with
  | none => exact .kept (Or.inr ⟨_, rfl⟩)
  | some snapshot =>
    rw [Option.filter_eq_some_iff] at hStored
    obtain ⟨hStored, hOwn⟩ := hStored
    refine withSession_effect fun session hFound => ?_
    cases hRestore : Session.restore snapshot session with
    | ok _ restored =>
      simp only
      exact .restored hStored (by simpa using hOwn) hFound hRestore
    | error error after =>
      have hSame : service.sessions.put id after = service.sessions := by
        rw [restore_error hRestore]
        exact Registry.put_of_find? hFound
      simp only [hSame]
      exact .kept (Or.inr ⟨_, rfl⟩)

/-- **No call does anything else.** -/
theorem perform_effect (call : Call) : Effect service supply call
    (service.perform supply call).2 (service.perform supply call).1.holdings := by
  cases call with
  | run request =>
    have hSame : (service.perform supply (.run request)).1.holdings = service.holdings :=
      runOnce_holdings service supply request
    rw [hSame]
    exact .kept (Or.inl rfl)
  | create request => exact create_effect service supply request
  | inspect id => exact withSession_effect fun _ _ => .kept (Or.inl rfl)
  | step id => exact execute_effect service supply rfl
  | execute id request => exact execute_effect service supply rfl
  | readMemory id window =>
    have hSame : (service.perform supply (.readMemory id window)).1 = service :=
      readMemory_service service id window
    rw [hSame]
    exact .kept (Or.inl rfl)
  | snapshot id => exact withSession_effect fun _ hFound => .captured hFound
  | restore id request => exact restore_effect service supply id request
  | list => exact .kept (Or.inl rfl)
  | delete id => exact withSession_effect fun _ hFound => .deleted hFound
  | metrics => exact .kept (Or.inl rfl)

end

end Ls8.Service
