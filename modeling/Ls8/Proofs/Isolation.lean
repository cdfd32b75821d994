import Ls8.Proofs.Consistency
import Ls8.Proofs.Stepping

/-!
# Sessions apart from each other

* `Arrival.concerns`: the requests that create a session or are addressed to it.
* `Holdings.part`: a session with its snapshots. `part_next`: a request that does not concern the
  session leaves them as they are. `reply_alike`: what any other request does to them, and how it
  is answered, depends on nothing else that the service holds.
* `isolation`: hence the requests that concern a session are answered as if there were no others.
-/

namespace Ls8.Service

/-! ## Requests that concern a session -/

/-- Whether a request creates a session or is addressed to it. -/
def Arrival.concerns (id : String) (arrival : Arrival) : Bool :=
  arrival.request.segments.take 2 == ["machine", id] || arrival.sessionId? == some id

theorem concerns_of_session {id other : String} {arrival : Arrival} {call : Call}
    (hCall : callOf? arrival.request = some call) (hSession : call.session? = some other) :
    arrival.concerns id ↔ other = id := by
  obtain ⟨rest, hSegments⟩ := segments_of_call hCall hSession
  have hNone : arrival.sessionId? = none := by
    unfold Arrival.sessionId?
    rw [hCall]
    cases call <;> first | rfl | cases hSession
  simp [Arrival.concerns, hSegments, hNone]

theorem concerns_of_create {id : String} {arrival : Arrival} {request : CreateRequest}
    (hCall : callOf? arrival.request = some (.create request)) :
    arrival.concerns id ↔ arrival.supply.sessionId = id := by
  have hLength := length_segments_of_call hCall rfl
  obtain ⟨segment, hSegments⟩ := List.length_eq_one_iff.mp hLength
  simp [Arrival.concerns, hSegments, Arrival.sessionId?_of_create hCall]

/-- No other call concerns a session. -/
theorem not_concerns {id : String} {arrival : Arrival} {call : Call}
    (hCall : callOf? arrival.request = some call) (hSession : call.session? = none)
    (hCreate : ∀ request, call ≠ .create request) : ¬arrival.concerns id := by
  have hLength := length_segments_of_call hCall hSession
  obtain ⟨segment, hSegments⟩ := List.length_eq_one_iff.mp hLength
  have hNone : arrival.sessionId? = none := by
    unfold Arrival.sessionId?
    rw [hCall]
    cases call with
    | create request => exact (hCreate request rfl).elim
    | _ => rfl
  simp [Arrival.concerns, hSegments, hNone]

/-! ## A session with its snapshots -/

/-- What a service holds of one session. -/
@[ext]
structure Part where
  settings : Settings
  session : Option Session
  /-- The snapshots that were taken of the session. -/
  snapshots : String → Option Snapshot

def Holdings.part (held : Holdings) (id : String) : Part where
  settings := held.settings
  session := held.sessions.find? id
  snapshots snapshotId := (held.snapshots.find? snapshotId).filter (·.machineId == id)

section

variable {held : Holdings} {id other snapshotId : String} {session : Session} {shown : Nat}

theorem part_put : { held with sessions := held.sessions.put id session, shown }.part id =
    { held.part id with session := some session } := by
  apply Part.ext
  · rfl
  · show (held.sessions.put id session).find? id = some session
    rw [Registry.find?_put, if_pos rfl]
  · rfl

theorem part_put_other (h : other ≠ id) :
    { held with sessions := held.sessions.put other session, shown }.part id = held.part id := by
  apply Part.ext
  · rfl
  · show (held.sessions.put other session).find? id = held.sessions.find? id
    rw [Registry.find?_put, if_neg (Ne.symm h)]
  · rfl

theorem part_capture (createdAt : Timestamp) (machine : Machine) :
    { held with
      snapshots := held.snapshots.put snapshotId
        (.capture snapshotId id createdAt machine) }.part id =
    { held.part id with
      snapshots := fun earlier => if earlier = snapshotId
        then some (.capture snapshotId id createdAt machine)
        else (held.part id).snapshots earlier } := by
  apply Part.ext
  · rfl
  · rfl
  · funext earlier
    show ((held.snapshots.put _ _).find? earlier).filter _ = _
    rw [Registry.find?_put]
    by_cases hHere : earlier = snapshotId
    · simp [hHere, Snapshot.capture, Option.filter_some]
    · simp [hHere, Holdings.part]

/-- A snapshot of another session, under a new id. -/
theorem part_capture_other (h : other ≠ id) (hNew : held.snapshots.find? snapshotId = none)
    (createdAt : Timestamp) (machine : Machine) :
    { held with
      snapshots := held.snapshots.put snapshotId
        (.capture snapshotId other createdAt machine) }.part id = held.part id := by
  apply Part.ext
  · rfl
  · rfl
  · funext earlier
    show ((held.snapshots.put _ _).find? earlier).filter _ = _
    rw [Registry.find?_put]
    by_cases hHere : earlier = snapshotId
    · simp [hHere, Snapshot.capture, Option.filter_some, Holdings.part, hNew, h]
    · simp [hHere, Holdings.part]

theorem part_delete (hDistinct : held.snapshots.Distinct) :
    { held with
      sessions := held.sessions.erase id
      snapshots := held.snapshots.filter fun _ snapshot => snapshot.machineId != id
      shown }.part id = ⟨held.settings, none, fun _ => none⟩ := by
  apply Part.ext
  · rfl
  · show (held.sessions.erase id).find? id = none
    rw [Registry.find?_erase, if_pos rfl]
  · funext snapshotId
    show ((held.snapshots.filter _).find? snapshotId).filter _ = none
    rw [Registry.find?_filter hDistinct, Option.filter_filter]
    simp

theorem part_delete_other (h : other ≠ id) (hDistinct : held.snapshots.Distinct) :
    { held with
      sessions := held.sessions.erase other
      snapshots := held.snapshots.filter fun _ snapshot => snapshot.machineId != other
      shown }.part id = held.part id := by
  apply Part.ext
  · rfl
  · show (held.sessions.erase other).find? id = held.sessions.find? id
    rw [Registry.find?_erase, if_neg (Ne.symm h)]
  · funext snapshotId
    show ((held.snapshots.filter _).find? snapshotId).filter _ = _
    rw [Registry.find?_filter hDistinct]
    show _ = (held.snapshots.find? snapshotId).filter _
    cases held.snapshots.find? snapshotId with
    | none => rfl
    | some snapshot =>
      by_cases hOwner : snapshot.machineId = id
      · have hKept : snapshot.machineId ≠ other := fun hSame => h (hSame.symm.trans hOwner)
        simp [Option.filter_some, hKept]
      · simp [Option.filter_some, hOwner]

variable {held' : Holdings} {shown' : Nat}

theorem part_put_eq (h : held'.part id = held.part id) :
    { held' with sessions := held'.sessions.put id session, shown := shown' }.part id =
      { held with sessions := held.sessions.put id session, shown }.part id := by
  rw [part_put, part_put, h]

theorem part_capture_eq (h : held'.part id = held.part id) (createdAt : Timestamp)
    (machine : Machine) :
    { held' with
      snapshots := held'.snapshots.put snapshotId
        (.capture snapshotId id createdAt machine) }.part id =
      { held with
        snapshots := held.snapshots.put snapshotId
          (.capture snapshotId id createdAt machine) }.part id := by
  rw [part_capture, part_capture, h]

theorem part_delete_eq (h : held'.part id = held.part id) (hDistinct : held.snapshots.Distinct)
    (hDistinct' : held'.snapshots.Distinct) :
    { held' with
      sessions := held'.sessions.erase id
      snapshots := held'.snapshots.filter fun _ snapshot => snapshot.machineId != id
      shown := shown' }.part id =
      { held with
        sessions := held.sessions.erase id
        snapshots := held.snapshots.filter fun _ snapshot => snapshot.machineId != id
        shown }.part id := by
  have hSettings : held'.settings = held.settings := congrArg Part.settings h
  rw [part_delete hDistinct, part_delete hDistinct', hSettings]

end

/-! ## Requests that do not concern a session -/

section

variable {service : Service} {arrivals : List Arrival} {record : List Exchange} {arrival : Arrival}
  {id : String}

/-- **A request that does not concern a session leaves it as it is**, and its snapshots too. -/
theorem part_next (hConsistent : Consistent arrivals record service.holdings)
    (hFresh : Fresh (arrivals ++ [arrival])) (hOther : ¬arrival.concerns id) :
    (service.next arrival).holdings.part id = service.holdings.part id := by
  cases hCall : callOf? arrival.request with
  | none => rw [next_of_none hCall]
  | some call =>
    have hEffect : Effect service arrival.supply call (service.perform arrival.supply call).2
      (service.next arrival).holdings := next_effect hCall
    generalize (service.perform arrival.supply call).2 = answer,
      (service.next arrival).holdings = held at hEffect ⊢
    cases hEffect with
    | created made => exact part_put_other (hOther ∘ (concerns_of_create hCall).mpr)
    | @executed call other session asks found =>
      have hSession : call.session? = some other := by
        cases call <;> cases asks <;> rfl
      exact part_put_other (hOther ∘ (concerns_of_session hCall hSession).mpr)
    | captured found =>
      have hNew : service.snapshots.find? arrival.supply.snapshotId = none := by
        rw [Option.eq_none_iff_forall_ne_some]
        intro snapshot hStored
        have hId := Arrival.snapshotId?_of_snapshot hCall
        obtain ⟨-, hTaken, -⟩ := hConsistent.stored hStored
        exact hFresh.snapshot_new hId (hConsistent.taken hTaken).2
      exact part_capture_other (hOther ∘ (concerns_of_session hCall rfl).mpr) hNew _ _
    | restored stored own found succeeds =>
      exact part_put_other (hOther ∘ (concerns_of_session hCall rfl).mpr)
    | deleted found =>
      exact part_delete_other (hOther ∘ (concerns_of_session hCall rfl).mpr)
        hConsistent.snapshots_distinct
    | kept quiet => rfl

end

/-! ## Requests that do -/

/-- Two services have come to the same with a session: the same answer, and the same left. -/
structure Alike (id : String) (result result' : Service × Answer) : Prop where
  answer : result'.2 = result.2
  part : result'.1.holdings.part id = result.1.holdings.part id

section

variable {service service' : Service} {id : String}

theorem withSession_alike (hPart : service'.holdings.part id = service.holdings.part id)
    {act act' : Session → Service × Answer} (h : ∀ session, Alike id (act session) (act' session)) :
    Alike id (service.withSession id act) (service'.withSession id act') := by
  have hSession : service'.sessions.find? id = service.sessions.find? id :=
    congrArg Part.session hPart
  cases hFound : service.sessions.find? id with
  | none =>
    rw [withSession_of_none hFound, withSession_of_none (hSession.trans hFound)]
    exact ⟨rfl, hPart⟩
  | some session =>
    rw [withSession_of_some hFound, withSession_of_some (hSession.trans hFound)]
    exact h session

theorem create_alike {supply : Supply}
    (hPart : service'.holdings.part supply.sessionId = service.holdings.part supply.sessionId)
    (request : CreateRequest) :
    Alike supply.sessionId (service.create supply request) (service'.create supply request) := by
  have hSettings : service'.settings = service.settings := congrArg Part.settings hPart
  cases hMade : Session.ofImage request.image
      (service.settings.machineConfig request.corrected none) supply.now with
  | error error =>
    rw [create_of_rejected hMade, create_of_rejected (hSettings ▸ hMade)]
    exact ⟨rfl, hPart⟩
  | ok session =>
    obtain ⟨hAnswer, hHeld⟩ := create_of_made hMade
    rw [← hSettings] at hMade
    obtain ⟨hAnswer', hHeld'⟩ := create_of_made hMade
    constructor
    · rw [hAnswer, hAnswer']
    · rw [hHeld, hHeld']
      exact part_put_eq hPart

theorem execute_alike (hPart : service'.holdings.part id = service.holdings.part id) (count : Nat) :
    Alike id (service.execute id count) (service'.execute id count) := by
  refine withSession_alike hPart fun session => ?_
  obtain ⟨hExecuted, hFault, hNext⟩ :=
    session.execute_instruments count service.instruments service'.instruments
  constructor
  · simp only [ExecutionReport.ofProgress, hExecuted, hFault, hNext]
  · simp only [hNext]
    exact part_put_eq hPart

theorem readMemory_alike (hPart : service'.holdings.part id = service.holdings.part id)
    (window : MemoryWindow) :
    Alike id (service.readMemory id window) (service'.readMemory id window) := by
  refine withSession_alike hPart fun session => ?_
  split <;> exact ⟨rfl, hPart⟩

theorem capture_alike (hPart : service'.holdings.part id = service.holdings.part id)
    (supply : Supply) : Alike id (service.capture supply id) (service'.capture supply id) := by
  refine withSession_alike hPart fun session => ?_
  exact ⟨rfl, part_capture_eq hPart supply.now session.machine⟩

theorem restore_alike (hPart : service'.holdings.part id = service.holdings.part id)
    (request : RestoreRequest) :
    Alike id (service.restore id request) (service'.restore id request) := by
  have hOwn : (service'.snapshots.find? request.snapshotId).filter (·.machineId == id) =
      (service.snapshots.find? request.snapshotId).filter (·.machineId == id) :=
    congrFun (congrArg Part.snapshots hPart) request.snapshotId
  unfold restore
  rw [hOwn]
  cases (service.snapshots.find? request.snapshotId).filter (·.machineId == id) with
  | none => exact ⟨rfl, hPart⟩
  | some snapshot =>
    refine withSession_alike hPart fun session => ?_
    cases Session.restore snapshot session with
    | ok _ restored => exact ⟨rfl, part_put_eq hPart⟩
    | error error left => exact ⟨rfl, part_put_eq hPart⟩

theorem delete_alike (hPart : service'.holdings.part id = service.holdings.part id)
    (hDistinct : service.snapshots.Distinct) (hDistinct' : service'.snapshots.Distinct) :
    Alike id (service.delete id) (service'.delete id) := by
  refine withSession_alike hPart fun session => ?_
  exact ⟨rfl, part_delete_eq hPart hDistinct hDistinct'⟩

theorem perform_alike (hPart : service'.holdings.part id = service.holdings.part id)
    (hDistinct : service.snapshots.Distinct) (hDistinct' : service'.snapshots.Distinct)
    {call : Call} (hSession : call.session? = some id) (supply : Supply) :
    Alike id (service.perform supply call) (service'.perform supply call) := by
  have hSettings : service'.settings = service.settings := congrArg Part.settings hPart
  cases call with
  | run _ | create _ | list | metrics => cases hSession
  | inspect _ =>
    cases hSession
    exact withSession_alike hPart fun session => ⟨rfl, hPart⟩
  | step _ =>
    cases hSession
    exact execute_alike hPart 1
  | execute _ request =>
    cases hSession
    simp only [perform, hSettings]
    exact execute_alike hPart _
  | readMemory _ window =>
    cases hSession
    exact readMemory_alike hPart window
  | snapshot _ =>
    cases hSession
    exact capture_alike hPart supply
  | restore _ request =>
    cases hSession
    exact restore_alike hPart request
  | delete _ =>
    cases hSession
    exact delete_alike hPart hDistinct hDistinct'

/-- **What becomes of a request that concerns a session depends on that session alone**, and on its
snapshots. -/
theorem reply_alike {arrival : Arrival}
    (hPart : service'.holdings.part id = service.holdings.part id)
    (hDistinct : service.snapshots.Distinct) (hDistinct' : service'.snapshots.Distinct)
    (hConcerns : arrival.concerns id) :
    service'.reply arrival = service.reply arrival ∧
      (service'.next arrival).holdings.part id = (service.next arrival).holdings.part id := by
  cases hCall : callOf? arrival.request with
  | none =>
    obtain ⟨response, hHandle⟩ := handle_of_none hCall
    rw [next_of_none hCall, next_of_none hCall, reply, reply, hHandle, hHandle]
    exact ⟨rfl, hPart⟩
  | some call =>
    have hAlike : Alike id (service.perform arrival.supply call)
        (service'.perform arrival.supply call) := by
      cases hSession : call.session? with
      | some other =>
        have hSame := (concerns_of_session hCall hSession).mp hConcerns
        exact perform_alike hPart hDistinct hDistinct' (hSession.trans (congrArg some hSame)) _
      | none =>
        cases call with
        | create request =>
          obtain rfl := (concerns_of_create hCall).mp hConcerns
          exact create_alike hPart request
        | _ => exact (not_concerns hCall hSession (fun _ h => by cases h) hConcerns).elim
    rw [reply_of_call hCall, reply_of_call hCall, next_holdings hCall, next_holdings hCall]
    exact ⟨congrArg (present arrival.request) hAlike.answer, hAlike.part⟩

end

/-! ## Whole runs -/

/-- The session and its answers are the same as without the requests that do not concern it. -/
theorem replies_apart (settings : Settings) {arrivals : List Arrival} (hFresh : Fresh arrivals)
    (id : String) :
    ((start settings).replies arrivals).filter (fun reply => reply.1.concerns id) =
        (start settings).replies (arrivals.filter (Arrival.concerns id)) ∧
      ((start settings).after (arrivals.filter (Arrival.concerns id))).holdings.part id =
        ((start settings).after arrivals).holdings.part id := by
  induction arrivals using List.reverseRecOn with
  | nil => exact ⟨rfl, rfl⟩
  | append_singleton arrivals arrival ih =>
    have hEarlier : Fresh arrivals := hFresh.sublist (List.sublist_append_left _ _)
    have hFull := consistent_after settings hEarlier
    have hAlone := consistent_after settings
      (hEarlier.sublist (List.filter_sublist (p := Arrival.concerns id)))
    obtain ⟨hReplies, hSame⟩ := ih hEarlier
    rw [replies_append, List.filter_append, List.filter_append, hReplies]
    by_cases hConcerns : arrival.concerns id
    · obtain ⟨hReply, hNext⟩ := reply_alike hSame hFull.snapshots_distinct
        hAlone.snapshots_distinct hConcerns
      have hOne : [arrival].filter (Arrival.concerns id) = [arrival] := by simp [hConcerns]
      rw [hOne, replies_append, after_append, after_append]
      refine ⟨?_, hNext⟩
      simp [replies, hConcerns, hReply]
    · have hNone : [arrival].filter (Arrival.concerns id) = [] := by simp [hConcerns]
      rw [hNone, List.append_nil, after_append]
      refine ⟨?_, hSame.trans (part_next hFull hFresh hConcerns).symm⟩
      simp [replies, hConcerns]

/-- What leaves a session and its snapshots as they are. -/
structure Undisturbed (id : String) (arrivals : List Arrival) (service : Service) : Prop where
  /-- What is addressed to other sessions, or to none. -/
  others : ∀ {arrival}, Fresh (arrivals ++ [arrival]) → ¬arrival.concerns id →
    (service.next arrival).holdings.part id = service.holdings.part id
  /-- To have a program run. -/
  runs : ∀ {arrival request}, callOf? arrival.request = some (.run request) →
    (service.next arrival).holdings.part id = service.holdings.part id
  /-- To name a snapshot of another session in a restore. -/
  foreign : ∀ {arrival machineId request snapshot},
    callOf? arrival.request = some (.restore machineId request) →
    service.snapshots.find? request.snapshotId = some snapshot → snapshot.machineId ≠ machineId →
    (service.next arrival).holdings.part id = service.holdings.part id
  /-- What is refused. -/
  refused : ∀ {arrival}, (service.reply arrival).status ≠ 200 →
    (service.next arrival).holdings.part id = service.holdings.part id

theorem Consistent.undisturbed {arrivals : List Arrival} {record : List Exchange}
    {service : Service} (h : Consistent arrivals record service.holdings) (id : String) :
    Undisturbed id arrivals service := by
  constructor
  case others => exact part_next h
  case runs =>
    intro arrival request hCall
    rw [next_holdings hCall]
    exact congrArg (Holdings.part · id) (runOnce_holdings service arrival.supply request)
  case foreign =>
    intro arrival machineId request snapshot hCall hStored hOwner
    have hMissing : ∀ found, service.snapshots.find? request.snapshotId = some found →
        found.machineId ≠ machineId := by
      intro found hFound
      cases hStored.symm.trans hFound
      exact hOwner
    rw [next_holdings hCall, perform, restore_of_missing hMissing]
  case refused =>
    intro arrival hStatus
    rw [next_of_refused hStatus]

/-- **Sessions do not interfere.** Whatever is asked of a service, the requests that concern a
session are answered as if there were no others, and nothing else changes the session. -/
theorem isolation (settings : Settings) {arrivals : List Arrival} (hFresh : Fresh arrivals)
    (id : String) :
    ((start settings).replies arrivals).filter (fun reply => reply.1.concerns id) =
        (start settings).replies (arrivals.filter (Arrival.concerns id)) ∧
      Undisturbed id arrivals ((start settings).after arrivals) :=
  ⟨(replies_apart settings hFresh id).1, (consistent_after settings hFresh).undisturbed id⟩

theorem isolation_comingsAndGoings : Fresh comingsAndGoings ∧
    ((start {}).replies comingsAndGoings).filter (fun reply => reply.1.concerns "b") =
        (start {}).replies (comingsAndGoings.filter (Arrival.concerns "b")) ∧
      Undisturbed "b" comingsAndGoings ((start {}).after comingsAndGoings) :=
  ⟨fresh_comingsAndGoings, isolation {} fresh_comingsAndGoings "b"⟩

end Ls8.Service
