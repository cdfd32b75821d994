import Ls8.Proofs.Consistency
import Ls8.Proofs.Stepping

/-!
# Snapshots as points of return

* `stored_after`: a snapshot stays what it was until its session is deleted.
* `Level`: two services in which a session has the same machine. `Level.exchanges`: whatever the
  session is made to do then, they answer the same but for the output.
* `restore_returns`: a session that is returned to a snapshot goes on as it did right after the
  snapshot was taken.
-/

namespace Ls8.Service

/-- An answer but for the output that it shows. -/
def Answer.withoutOutput : Answer → Answer
  | .ran report => .ran { report with output := [] }
  | .session state => .session { state with output := [] }
  | .executed report => .executed { report with output := [] }
  | answer => answer

/-- A call that lets the machine of a session execute instructions, or reads its memory. -/
def Call.drives (id : String) : Call → Bool
  | .step other | .execute other _ | .readMemory other _ => other == id
  | _ => false

/-! ## A snapshot stays what it was -/

theorem stored_next {service : Service} {arrival : Arrival} {id : String} {snapshot : Snapshot}
    (hDistinct : service.snapshots.Distinct)
    (hStored : service.snapshots.find? id = some snapshot)
    (hKept : callOf? arrival.request ≠ some (.delete snapshot.machineId))
    (hNew : arrival.snapshotId? ≠ some id) :
    (service.next arrival).snapshots.find? id = some snapshot := by
  cases hCall : callOf? arrival.request with
  | none =>
    rw [next_of_none hCall]
    exact hStored
  | some call =>
    have hEffect : Effect service arrival.supply call (service.perform arrival.supply call).2
      (service.next arrival).holdings := next_effect hCall
    show (service.next arrival).holdings.snapshots.find? id = some snapshot
    generalize (service.perform arrival.supply call).2 = answer,
      (service.next arrival).holdings = held at hEffect ⊢
    cases hEffect with
    | created _ | executed _ _ | restored _ _ _ _ | kept _ => exact hStored
    | captured _ =>
      have hOther : id ≠ arrival.supply.snapshotId := by
        rintro rfl
        exact hNew (Arrival.snapshotId?_of_snapshot hCall)
      show (service.snapshots.put _ _).find? id = some snapshot
      rw [Registry.find?_put, if_neg hOther]
      exact hStored
    | @deleted other _ _ =>
      have hOther : snapshot.machineId ≠ other := by
        rintro rfl
        exact hKept hCall
      show (service.snapshots.filter _).find? id = some snapshot
      rw [Registry.find?_filter hDistinct, hStored]
      exact Option.filter_some_pos (by simpa using hOther)

theorem stored_after {settings : Settings} {before between : List Arrival} {id : String}
    {snapshot : Snapshot} (hFresh : Fresh (before ++ between))
    (hStored : (after (start settings) before).snapshots.find? id = some snapshot)
    (hKept : ∀ arrival ∈ between, callOf? arrival.request ≠ some (.delete snapshot.machineId)) :
    (after (start settings) (before ++ between)).snapshots.find? id = some snapshot := by
  induction between using List.reverseRecOn with
  | nil =>
    rw [List.append_nil]
    exact hStored
  | append_singleton between arrival ih =>
    rw [← List.append_assoc] at hFresh ⊢
    have hEarlier : Fresh (before ++ between) := hFresh.sublist (List.sublist_append_left _ _)
    have hConsistent := consistent_after settings hEarlier
    have hStill := ih hEarlier fun earlier hMem => hKept earlier (List.mem_append_left _ hMem)
    rw [after_append]
    refine stored_next hConsistent.snapshots_distinct hStill ?_ ?_
    · exact hKept arrival (List.mem_append_right _ List.mem_cons_self)
    · intro hId
      obtain ⟨-, hTaken, -⟩ := hConsistent.stored hStill
      exact hFresh.snapshot_new hId (hConsistent.taken hTaken).2

/-! ## Sessions with the same machine -/

/-- Under an id there are sessions with the same machine, and the settings are the same. -/
structure Level (id : String) (held held' : Holdings) : Prop where
  settings : held'.settings = held.settings
  machine : ∃ session session', held.sessions.find? id = some session ∧
    held'.sessions.find? id = some session' ∧ session'.machine = session.machine

namespace Level

variable {id : String} {service service' : Service}

theorem execute (h : Level id service.holdings service'.holdings) (count : Nat) :
    (service'.execute id count).2.withoutOutput = (service.execute id count).2.withoutOutput ∧
      Level id (service.execute id count).1.holdings (service'.execute id count).1.holdings := by
  obtain ⟨session, session', hFound, hFound', hMachine⟩ := h.machine
  obtain ⟨hExecuted, hFault, hNext⟩ :=
    Session.execute_of_machine hMachine count service.instruments service'.instruments
  rw [execute_of_some hFound, execute_of_some hFound']
  constructor
  · simp only [Answer.withoutOutput, ExecutionReport.ofProgress, hExecuted, hFault, hNext]
  · refine ⟨h.settings, _, _, ?_, ?_, hNext⟩
    · show (service.sessions.put id _).find? id = _
      rw [Registry.find?_put, if_pos rfl]
    · show (service'.sessions.put id _).find? id = _
      rw [Registry.find?_put, if_pos rfl]

theorem readMemory (h : Level id service.holdings service'.holdings) (window : MemoryWindow) :
    (service'.readMemory id window).2 = (service.readMemory id window).2 ∧
      Level id (service.readMemory id window).1.holdings
        (service'.readMemory id window).1.holdings := by
  obtain ⟨session, session', hFound, hFound', hMachine⟩ := h.machine
  constructor
  · unfold Service.readMemory
    rw [withSession_of_some hFound, withSession_of_some hFound', hMachine]
    split <;> rfl
  · rw [readMemory_service, readMemory_service]
    exact h

theorem perform (h : Level id service.holdings service'.holdings) {call : Call}
    (hDrives : call.drives id) (supply : Supply) :
    (service'.perform supply call).2.withoutOutput =
        (service.perform supply call).2.withoutOutput ∧
      Level id (service.perform supply call).1.holdings
        (service'.perform supply call).1.holdings := by
  have hSettings : service'.settings = service.settings := h.settings
  cases call with
  | step other =>
    obtain rfl : other = id := by simpa [Call.drives] using hDrives
    exact h.execute 1
  | execute other request =>
    obtain rfl : other = id := by simpa [Call.drives] using hDrives
    simp only [Service.perform, hSettings]
    exact h.execute _
  | readMemory other window =>
    obtain rfl : other = id := by simpa [Call.drives] using hDrives
    obtain ⟨hSame, hLevel⟩ := h.readMemory window
    exact ⟨congrArg Answer.withoutOutput hSame, hLevel⟩
  | _ => cases hDrives

/-- The same calls, one after another, are answered in the same way. -/
theorem exchanges (h : Level id service.holdings service'.holdings) {arrivals : List Arrival}
    (hDrive : ∀ arrival ∈ arrivals, ∃ call, callOf? arrival.request = some call ∧ call.drives id) :
    (service'.exchanges arrivals).map (fun exchange => exchange.answer.withoutOutput) =
      (service.exchanges arrivals).map fun exchange => exchange.answer.withoutOutput := by
  induction arrivals generalizing service service' with
  | nil => rfl
  | cons arrival rest ih =>
    obtain ⟨call, hCall, hDrives⟩ := hDrive arrival List.mem_cons_self
    obtain ⟨hAnswer, hLevel⟩ := h.perform hDrives arrival.supply
    rw [← next_holdings hCall, ← next_holdings hCall] at hLevel
    have hRest := ih hLevel fun later hMem => hDrive later (List.mem_cons_of_mem _ hMem)
    simp only [Service.exchanges, exchange?_of_call hCall, Option.toList_some, List.map_append,
      List.map_cons, List.map_nil, hAnswer, hRest]

end Level

/-! ## Return to a snapshot -/

/-- The request `restore` returns a session to a machine that it had in the service `taken`. -/
structure Returns (id : String) (machine : Machine) (taken service : Service)
    (restore : Arrival) : Prop where
  /-- It succeeds. The session has the machine again, with all of its memory, and keeps its
  output. -/
  answered : ∃ session, service.sessions.find? id = some session ∧
    (service.reply restore).status = 200 ∧
    (service.reply restore).body =
      .json (Answer.success (SessionState.ofSession id { session with machine }).toJson) ∧
    (service.next restore).sessions.find? id = some { session with machine }
  /-- From then on it executes what it would have executed in `taken`, and shows the same
  memory. -/
  repeated : ∀ arrivals : List Arrival,
    (∀ arrival ∈ arrivals, ∃ call, callOf? arrival.request = some call ∧ call.drives id) →
    ((service.next restore).exchanges arrivals).map
        (fun exchange => exchange.answer.withoutOutput) =
      (taken.exchanges arrivals).map fun exchange => exchange.answer.withoutOutput

theorem returns_of_stored {id snapshotId : String} {createdAt : Timestamp}
    {taken service : Service} {restore : Arrival} {first session : Session}
    (hRestore : callOf? restore.request = some (.restore id ⟨snapshotId⟩))
    (hStored : service.snapshots.find? snapshotId =
      some (.capture snapshotId id createdAt first.machine))
    (hFound : service.sessions.find? id = some session)
    (hFirst : taken.sessions.find? id = some first)
    (hSettings : service.settings = taken.settings) :
    Returns id first.machine taken service restore := by
  have hPerform : service.perform restore.supply (.restore id ⟨snapshotId⟩) =
      ({ service with
          sessions := service.sessions.put id { session with machine := first.machine } },
        .session (.ofSession id { session with machine := first.machine })) :=
    restore_of_captured hStored hFound
  have hHoldings : (service.next restore).holdings =
      (service.perform restore.supply (.restore id ⟨snapshotId⟩)).1.holdings :=
    next_holdings hRestore
  rw [hPerform] at hHoldings
  have hNext : (service.next restore).sessions.find? id =
      some { session with machine := first.machine } := by
    show (service.next restore).holdings.sessions.find? id = _
    rw [hHoldings]
    show (service.sessions.put id _).find? id = _
    rw [Registry.find?_put, if_pos rfl]
  constructor
  case answered =>
    refine ⟨session, hFound, ?_, ?_, hNext⟩
    · rw [reply_of_call hRestore, present_status, hPerform]
      rfl
    · rw [reply_of_call hRestore, present_body, hPerform]
      rfl
  case repeated =>
    intro arrivals hDrive
    have hLevel : Level id taken.holdings (service.next restore).holdings := by
      refine ⟨?_, first, _, hFirst, hNext, rfl⟩
      exact next_settings.trans hSettings
    exact hLevel.exchanges hDrive

/-- A snapshot that is taken is of the machine that the session has, and is there. -/
theorem next_of_captured {service : Service} {capture : Arrival} {id : String}
    {info : SnapshotInfo}
    (h : service.exchange? capture = some ⟨.snapshot id, .captured info⟩) :
    ∃ session, service.sessions.find? id = some session ∧
      (service.next capture).sessions.find? id = some session ∧
      (service.next capture).snapshots.find? info.id =
        some (.capture info.id id capture.supply.now session.machine) := by
  obtain ⟨hCall, hAnswer⟩ := call_of_exchange? h
  have hHoldings : (service.next capture).holdings =
      (service.perform capture.supply (.snapshot id)).1.holdings := next_holdings hCall
  cases hFound : service.sessions.find? id with
  | none =>
    rw [perform, Service.capture, withSession_of_none hFound] at hAnswer
    cases hAnswer
  | some session =>
    rw [perform, capture_of_some hFound] at hAnswer hHoldings
    cases hAnswer
    refine ⟨session, rfl, ?_, ?_⟩
    · show (service.next capture).holdings.sessions.find? id = some session
      rw [hHoldings]
      exact hFound
    · show (service.next capture).holdings.snapshots.find? capture.supply.snapshotId = _
      rw [hHoldings]
      show (service.snapshots.put _ _).find? _ = _
      rw [Registry.find?_put, if_pos rfl]
      rfl

/-- **A session can be returned to a snapshot until it is deleted.** Whatever was asked of the
service since the snapshot was taken, earlier returns to it included, the session becomes what it
was. -/
theorem restore_returns {settings : Settings} {before between : List Arrival}
    {capture restore : Arrival} {id : String} {info : SnapshotInfo}
    (hFresh : Fresh (before ++ capture :: between))
    (hTaken : (after (start settings) before).exchange? capture =
      some ⟨.snapshot id, .captured info⟩)
    (hKept : ∀ arrival ∈ between, callOf? arrival.request ≠ some (.delete id))
    (hRestore : callOf? restore.request = some (.restore id ⟨info.id⟩)) :
    ∃ session, (after (start settings) before).sessions.find? id = some session ∧
      Returns id session.machine (after (start settings) (before ++ [capture]))
        (after (start settings) (before ++ capture :: between)) restore := by
  obtain ⟨session, hSession, hNext, hStored⟩ := next_of_captured hTaken
  have hThen : (after (start settings) before).next capture =
      after (start settings) (before ++ [capture]) := by
    rw [after_append]
    rfl
  rw [hThen] at hNext hStored
  rw [List.append_cons before capture between] at hFresh ⊢
  -- the snapshot is still there, hence the session is, too
  have hStill := stored_after hFresh hStored hKept
  have hConsistent := consistent_after settings hFresh
  obtain ⟨current, hCurrent⟩ := (hConsistent.live_iff id).mp (hConsistent.stored hStill).1
  refine ⟨session, hSession, returns_of_stored hRestore hStill hCurrent hNext ?_⟩
  rw [after_settings, after_settings]

/-- Begins a session of PRN and a jump back to it. -/
def flooding : Arrival :=
  .plain "POST" "/machine" "[\"01000111\\n00000000\\n01010100\\n00000000\\n\", null]" "a"

theorem callOf?_flooding : callOf? flooding.request = some (.create ⟨Session.flood, none⟩) := by
  decide +kernel

theorem found_flooding :
    ∃ session, (after (start {}) [flooding]).sessions.find? "a" = some session := by
  have hConfig : (start {}).settings.machineConfig none none = ⟨.compatible, some 1000000⟩ := rfl
  have hId : flooding.supply.sessionId = "a" := rfl
  have hNext : (start {}).next flooding = after (start {}) [flooding] := rfl
  have hMade := Session.ofImage_flood (some 1000000) flooding.supply.now
  rw [← hConfig] at hMade
  have hFound := found_of_created callOf?_flooding hMade
  rw [hId, hNext] at hFound
  exact ⟨_, hFound⟩

def floodCaptured : Arrival := .plain "POST" "/machine/a/snapshot" "" "b"

def floodExecuted : Arrival := .plain "POST" "/machine/a/execute" "[10]"

def floodRestored : Arrival := .plain "POST" "/machine/a/restore" "[\"b\"]"

theorem restore_returns_flood : ∃ info session,
    Fresh [flooding, floodCaptured, floodExecuted] ∧
      (after (start {}) [flooding]).exchange? floodCaptured =
        some ⟨.snapshot "a", .captured info⟩ ∧
      callOf? floodExecuted.request ≠ some (.delete "a") ∧
      callOf? floodRestored.request = some (.restore "a" ⟨info.id⟩) ∧
      (after (start {}) [flooding]).sessions.find? "a" = some session ∧
      Returns "a" session.machine (after (start {}) [flooding, floodCaptured])
        (after (start {}) [flooding, floodCaptured, floodExecuted]) floodRestored := by
  have hCreate := callOf?_flooding
  have hCapture : callOf? floodCaptured.request = some (.snapshot "a") := by decide +kernel
  have hExecute : callOf? floodExecuted.request = some (.execute "a" ⟨10⟩) := by decide +kernel
  have hRestore : callOf? floodRestored.request = some (.restore "a" ⟨"b"⟩) := by decide +kernel
  have hSessions : [flooding, floodCaptured, floodExecuted].filterMap Arrival.sessionId? =
      ["a"] := by
    simp [Arrival.sessionId?, hCreate, hCapture, hExecute]
    rfl
  have hSnapshots : [flooding, floodCaptured, floodExecuted].filterMap Arrival.snapshotId? =
      ["b"] := by
    simp [Arrival.snapshotId?, hCreate, hCapture, hExecute]
    rfl
  have hFresh : Fresh [flooding, floodCaptured, floodExecuted] := by
    constructor
    · rw [hSessions]
      decide
    · rw [hSnapshots]
      decide
  obtain ⟨session, hFound⟩ := found_flooding
  have hTaken : (after (start {}) [flooding]).exchange? floodCaptured =
      some ⟨.snapshot "a", .captured (.ofSnapshot
        (.capture "b" "a" .epoch session.machine))⟩ := by
    rw [exchange?_of_call hCapture, perform, capture_of_some hFound]
    rfl
  have hKept : ∀ arrival ∈ [floodExecuted], callOf? arrival.request ≠ some (.delete "a") := by
    intro arrival hMem
    rw [List.mem_singleton.mp hMem, hExecute]
    simp
  obtain ⟨found, hSame, hReturns⟩ := restore_returns hFresh hTaken hKept hRestore
  exact ⟨_, found, hFresh, hTaken, hKept _ List.mem_cons_self, hRestore, hSame, hReturns⟩

end Ls8.Service
