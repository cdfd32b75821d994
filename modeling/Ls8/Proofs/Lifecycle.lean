import Ls8.Proofs.Consistency

/-!
# The life of sessions and their snapshots

`lifecycle`: what a service answers depends on which sessions live (`Live`) and which snapshots
were taken of them (`Taken`). Each of its parts follows from the service being `Consistent` with
the exchanges before.
-/

namespace Ls8.Service

/-- The states of all sessions that live, once each, and as the sessions show them themselves. -/
structure Lists (record : List Exchange) (service : Service) (states : List SessionState) :
    Prop where
  nodup : (states.map SessionState.id).Nodup
  live : ∀ id, id ∈ states.map SessionState.id ↔ Live record id
  inspected : ∀ state ∈ states, ∀ {arrival : Arrival},
    callOf? arrival.request = some (.inspect state.id) →
    (service.reply arrival).status = 200 ∧
      (service.reply arrival).body = .json (Answer.success state.toJson)

/-- What the metrics show if `count` sessions live. -/
def gaugeOf (count : Nat) : Ls8.Metrics.Family where
  name := "ls8_active_machines"
  help := "Number of live machine sessions"
  kind := .gauge
  samples := [{ count }]

/-- How the answers of a service depend on the exchanges before. -/
structure Lifecycle (record : List Exchange) (service : Service) : Prop where
  /-- A call about a session, if not for a snapshot to be restored, is answered with 404 unless the
  session lives. -/
  reached : ∀ {arrival call id}, callOf? arrival.request = some call → call.session? = some id →
    (∀ request, call ≠ .restore id request) →
    ((service.reply arrival).status ≠ 404 ↔ Live record id)
  /-- Whatever is answered with 404 changes no session and no snapshot. -/
  unknown : ∀ {arrival}, (service.reply arrival).status = 404 →
    (service.next arrival).sessions = service.sessions ∧
      (service.next arrival).snapshots = service.snapshots
  /-- Exactly the sessions that live are listed. -/
  listed : ∀ {arrival}, callOf? arrival.request = some .list →
    ∃ states, Lists record service states ∧ (service.reply arrival).status = 200 ∧
      (service.reply arrival).body =
        .json (Answer.success (.array (states.map SessionState.toJson)))
  /-- Only sessions that live have snapshots. -/
  owned : ∀ entry ∈ service.snapshots.entries, Live record entry.2.machineId
  /-- A session that lives can be returned to any snapshot that was taken of it. -/
  restorable : ∀ {arrival id request}, callOf? arrival.request = some (.restore id request) →
    ((service.reply arrival).status = 200 ↔
      Taken record id request.snapshotId ∧ Live record id)
  /-- There is only one reason not to restore a snapshot. -/
  missing : ∀ {arrival id request}, callOf? arrival.request = some (.restore id request) →
    (service.reply arrival).status ≠ 200 → (service.reply arrival).status = 404 ∧
      (service.reply arrival).body =
        .json (Answer.failure "Snapshot not found for this machine")
  /-- The metrics show the number of sessions that live. -/
  gauge : ∃ ids : List String, ids.Nodup ∧ (∀ id, id ∈ ids ↔ Live record id) ∧
    gaugeOf ids.length ∈ service.metrics.families

namespace Consistent

variable {arrivals : List Arrival} {record : List Exchange} {service : Service}

theorem reached (h : Consistent arrivals record service.holdings) {arrival : Arrival} {call : Call}
    {id : String} (hCall : callOf? arrival.request = some call) (hSession : call.session? = some id)
    (hOther : ∀ request, call ≠ .restore id request) :
    (service.reply arrival).status ≠ 404 ↔ Live record id := by
  rw [reply_of_call hCall, present_status, h.live_iff]
  cases hFound : service.sessions.find? id with
  | none =>
    rw [perform_of_absent hSession hOther hFound]
    simp [Answer.status, Problem.status]
  | some session =>
    have hStatus := status_of_present hSession hOther hFound arrival.supply
    simpa using hStatus

theorem lists (h : Consistent arrivals record service.holdings) :
    Lists record service
      (service.sessions.entries.map fun (id, session) => .ofSession id session) := by
  have hKeys : (service.sessions.entries.map fun (id, session) =>
      SessionState.ofSession id session).map SessionState.id = service.sessions.keys := by
    rw [List.map_map]
    rfl
  constructor
  case nodup =>
    rw [hKeys]
    exact h.sessions_distinct
  case live =>
    rw [hKeys]
    exact h.live
  case inspected =>
    intro state hState arrival hCall
    obtain ⟨⟨id, session⟩, hMem, rfl⟩ := List.mem_map.mp hState
    have hFound : service.sessions.find? id = some session := h.sessions_distinct.find?_of_mem hMem
    have hInspect : service.perform arrival.supply (.inspect id) =
        (service, .session (.ofSession id session)) := withSession_of_some hFound _
    rw [reply_of_call hCall, present_status, present_body]
    simp only [SessionState.ofSession] at hInspect ⊢
    rw [hInspect]
    exact ⟨rfl, rfl⟩

theorem listed (h : Consistent arrivals record service.holdings) {arrival : Arrival}
    (hCall : callOf? arrival.request = some .list) :
    ∃ states, Lists record service states ∧ (service.reply arrival).status = 200 ∧
      (service.reply arrival).body =
        .json (Answer.success (.array (states.map SessionState.toJson))) := by
  refine ⟨_, h.lists, ?_⟩
  rw [reply_of_call hCall, present_status, present_body]
  exact ⟨rfl, rfl⟩

/-- A snapshot that was taken of a session which lives is there, and restores it. -/
theorem restored (h : Consistent arrivals record service.holdings) {id : String}
    {request : RestoreRequest} (hTaken : Taken record id request.snapshotId)
    (hLive : Live record id) :
    ∃ machine session, service.sessions.find? id = some session ∧
      service.restore id request =
        ({ service with sessions := service.sessions.put id { session with machine } },
          .session (.ofSession id { session with machine })) := by
  obtain ⟨snapshot, hStored, hOwner⟩ := h.kept hTaken hLive
  obtain ⟨-, -, createdAt, machine, hCapture⟩ := h.stored hStored
  obtain ⟨session, hFound⟩ := (h.live_iff id).mp hLive
  rw [hCapture, hOwner] at hStored
  exact ⟨machine, session, hFound, restore_of_captured hStored hFound⟩

theorem refused_of_missing (h : Consistent arrivals record service.holdings) {id : String}
    {request : RestoreRequest} (hMissing : ¬(Taken record id request.snapshotId ∧ Live record id)) :
    service.restore id request = (service, .refused .noSnapshot) := by
  refine restore_of_missing ?_
  rintro snapshot hStored rfl
  obtain ⟨hLive, hTaken, -⟩ := h.stored hStored
  exact hMissing ⟨hTaken, hLive⟩

theorem restorable (h : Consistent arrivals record service.holdings) {arrival : Arrival}
    {id : String} {request : RestoreRequest}
    (hCall : callOf? arrival.request = some (.restore id request)) :
    (service.reply arrival).status = 200 ↔ Taken record id request.snapshotId ∧ Live record id := by
  rw [reply_of_call hCall, present_status, perform]
  by_cases hKnown : Taken record id request.snapshotId ∧ Live record id
  · obtain ⟨machine, session, -, hRestore⟩ := h.restored hKnown.1 hKnown.2
    rw [hRestore]
    exact iff_of_true rfl hKnown
  · rw [h.refused_of_missing hKnown]
    exact iff_of_false (status_refused_ne _) hKnown

theorem missing (h : Consistent arrivals record service.holdings) {arrival : Arrival} {id : String}
    {request : RestoreRequest} (hCall : callOf? arrival.request = some (.restore id request))
    (hStatus : (service.reply arrival).status ≠ 200) :
    (service.reply arrival).status = 404 ∧
      (service.reply arrival).body =
        .json (Answer.failure "Snapshot not found for this machine") := by
  have hMissing := (not_congr (h.restorable hCall)).mp hStatus
  rw [reply_of_call hCall, present_status, present_body, perform, h.refused_of_missing hMissing]
  exact ⟨rfl, rfl⟩

theorem gauge (h : Consistent arrivals record service.holdings) :
    ∃ ids : List String, ids.Nodup ∧ (∀ id, id ∈ ids ↔ Live record id) ∧
      gaugeOf ids.length ∈ service.metrics.families := by
  refine ⟨service.sessions.keys, h.sessions_distinct, h.live, ?_⟩
  have hShown : service.metrics.activeSessions = service.sessions.keys.length := by
    rw [← Registry.size_eq_length_keys]
    exact h.shown
  rw [← hShown]
  exact List.mem_cons_self

end Consistent

/-- **Sessions live from their creation to their deletion, and their snapshots with them.** Whatever
was asked of a service, its answers tell what lives, provided that it is given fresh ids. -/
theorem lifecycle (settings : Settings) {arrivals : List Arrival} (hFresh : Fresh arrivals) :
    Lifecycle (exchanges (start settings) arrivals) (after (start settings) arrivals) where
  reached := (consistent_after settings hFresh).reached
  unknown := by
    intro arrival hStatus
    have hRefused : ((after (start settings) arrivals).reply arrival).status ≠ 200 := by
      rw [hStatus]
      decide
    have hSame := next_of_refused hRefused
    exact ⟨congrArg Holdings.sessions hSame, congrArg Holdings.snapshots hSame⟩
  listed := (consistent_after settings hFresh).listed
  owned := by
    rintro ⟨id, snapshot⟩ hEntry
    have h := consistent_after settings hFresh
    exact (h.stored (h.snapshots_distinct.find?_of_mem hEntry)).1
  restorable := (consistent_after settings hFresh).restorable
  missing := (consistent_after settings hFresh).missing
  gauge := (consistent_after settings hFresh).gauge

theorem lifecycle_comingsAndGoings : Fresh comingsAndGoings ∧
    Lifecycle (exchanges (start {}) comingsAndGoings) (after (start {}) comingsAndGoings) :=
  ⟨fresh_comingsAndGoings, lifecycle {} fresh_comingsAndGoings⟩

end Ls8.Service
