import Ls8.Proofs.Effects

/-!
# Requests sent one after another

* `Service.start`, `Service.after`: a new service, and a service after some requests.
  `Service.replies`: the responses to them.
* `Service.exchanges`: the calls that they made, with the answers.
* `Fresh`: no session and no snapshot is given an id that another one was given. What is fresh
  remains so without some of the requests (`Fresh.sublist`).
-/

namespace Ls8.Service

/-- A request, and what the service is supplied with to answer it. -/
structure Arrival where
  supply : Supply
  request : Http.Request

/-- A request without headers. What it makes is given the id `id`. -/
def Arrival.plain (method path : String) (body id : String := "") : Arrival where
  supply := ⟨.epoch, id, id, id⟩
  request := { method, path, body }

/-- A call that was carried out, and its answer. -/
structure Exchange where
  call : Call
  answer : Answer

/-- A service of which nothing was asked yet. -/
def start (settings : Settings) : Service := { settings }

section

variable (service : Service) (arrival : Arrival)

def next : Service := (service.handle arrival.supply arrival.request).1

def reply : Http.Response := (service.handle arrival.supply arrival.request).2

/-- The call of a request with the answer to it, if the request reaches a handler. -/
def exchange? : Option Exchange :=
  (callOf? arrival.request).map fun call => ⟨call, (service.perform arrival.supply call).2⟩

end

def after (service : Service) (arrivals : List Arrival) : Service :=
  arrivals.foldl next service

def exchanges (service : Service) : List Arrival → List Exchange
  | [] => []
  | arrival :: rest => (service.exchange? arrival).toList ++ (service.next arrival).exchanges rest

/-- The requests with the responses to them. -/
def replies (service : Service) : List Arrival → List (Arrival × Http.Response)
  | [] => []
  | arrival :: rest => (arrival, service.reply arrival) :: (service.next arrival).replies rest

section

variable {service : Service} {arrival : Arrival}

@[simp]
theorem after_append (arrivals rest : List Arrival) :
    service.after (arrivals ++ rest) = (service.after arrivals).after rest :=
  List.foldl_append

theorem exchanges_append (arrivals rest : List Arrival) :
    service.exchanges (arrivals ++ rest) =
      service.exchanges arrivals ++ (service.after arrivals).exchanges rest := by
  induction arrivals generalizing service with
  | nil => rfl
  | cons arrival arrivals ih =>
    rw [List.cons_append, exchanges, exchanges, ih, List.append_assoc]
    rfl

theorem exchanges_snoc (arrivals : List Arrival) (arrival : Arrival) :
    service.exchanges (arrivals ++ [arrival]) =
      service.exchanges arrivals ++ ((service.after arrivals).exchange? arrival).toList := by
  rw [exchanges_append, exchanges, exchanges, List.append_nil]

theorem replies_append (arrivals rest : List Arrival) :
    service.replies (arrivals ++ rest) =
      service.replies arrivals ++ (service.after arrivals).replies rest := by
  induction arrivals generalizing service with
  | nil => rfl
  | cons arrival arrivals ih =>
    rw [List.cons_append, replies, replies, ih]
    rfl

/-! ## Requests that make a call, and requests that make none -/

variable {call : Call}

theorem exchange?_of_call (h : callOf? arrival.request = some call) :
    service.exchange? arrival = some ⟨call, (service.perform arrival.supply call).2⟩ := by
  rw [exchange?, h]
  rfl

theorem call_of_exchange? {answer : Answer} (h : service.exchange? arrival = some ⟨call, answer⟩) :
    callOf? arrival.request = some call ∧ (service.perform arrival.supply call).2 = answer := by
  rw [exchange?, Option.map_eq_some_iff] at h
  obtain ⟨made, hCall, hExchange⟩ := h
  cases hExchange
  exact ⟨hCall, rfl⟩

theorem reply_of_call (h : callOf? arrival.request = some call) :
    service.reply arrival =
      present arrival.request (service.perform arrival.supply call).2 := by
  rw [reply, handle_of_call h]
  rfl

theorem next_holdings (h : callOf? arrival.request = some call) :
    (service.next arrival).holdings = (service.perform arrival.supply call).1.holdings := by
  rw [next, handle_of_call h]
  rfl

theorem next_effect (h : callOf? arrival.request = some call) :
    Effect service arrival.supply call (service.perform arrival.supply call).2
      (service.next arrival).holdings := by
  rw [next_holdings h]
  exact perform_effect service arrival.supply call

/-- A session that is created is there. -/
theorem found_of_created {request : CreateRequest} {session : Session}
    (hCall : callOf? arrival.request = some (.create request))
    (hMade : Session.ofImage request.image
      (service.settings.machineConfig request.corrected none) arrival.supply.now = .ok session) :
    (service.next arrival).sessions.find? arrival.supply.sessionId = some session := by
  show (service.next arrival).holdings.sessions.find? _ = _
  rw [next_holdings hCall, perform, (create_of_made hMade).2]
  show (service.sessions.put _ _).find? _ = _
  rw [Registry.find?_put, if_pos rfl]

theorem exchange?_of_none (h : callOf? arrival.request = none) :
    service.exchange? arrival = none := by
  rw [exchange?, h]
  rfl

theorem next_of_none (h : callOf? arrival.request = none) : service.next arrival = service := by
  obtain ⟨response, hHandle⟩ := handle_of_none h
  rw [next, hHandle]

theorem next_of_refused (h : (service.reply arrival).status ≠ 200) :
    (service.next arrival).holdings = service.holdings := by
  cases hCall : callOf? arrival.request with
  | none => rw [next_of_none hCall]
  | some call =>
    rw [reply_of_call hCall, present_status] at h
    exact (next_effect hCall).holdings_of_refused h

theorem next_settings : (service.next arrival).settings = service.settings := by
  cases hCall : callOf? arrival.request with
  | none => rw [next_of_none hCall]
  | some call => exact (next_effect hCall).settings

theorem after_settings (arrivals : List Arrival) :
    (service.after arrivals).settings = service.settings := by
  induction arrivals generalizing service with
  | nil => rfl
  | cons arrival rest ih => exact ih.trans next_settings

end

/-! ## Fresh ids -/

namespace Arrival

/-- The id that is given to a session which the request asks for. -/
def sessionId? (arrival : Arrival) : Option String :=
  match callOf? arrival.request with
  | some (.create _) => some arrival.supply.sessionId
  | _ => none

/-- The id that is given to a snapshot which the request asks for. -/
def snapshotId? (arrival : Arrival) : Option String :=
  match callOf? arrival.request with
  | some (.snapshot _) => some arrival.supply.snapshotId
  | _ => none

variable {arrival : Arrival}

theorem sessionId?_of_create {request : CreateRequest}
    (h : callOf? arrival.request = some (.create request)) :
    arrival.sessionId? = some arrival.supply.sessionId := by
  simp only [sessionId?, h]

theorem snapshotId?_of_snapshot {id : String}
    (h : callOf? arrival.request = some (.snapshot id)) :
    arrival.snapshotId? = some arrival.supply.snapshotId := by
  simp only [snapshotId?, h]

end Arrival

/-- No id is given twice. -/
structure Fresh (arrivals : List Arrival) : Prop where
  sessions : (arrivals.filterMap Arrival.sessionId?).Nodup
  snapshots : (arrivals.filterMap Arrival.snapshotId?).Nodup

namespace Fresh

variable {arrivals part : List Arrival} {arrival : Arrival} {id : String}

theorem sublist (h : Fresh arrivals) (hPart : part.Sublist arrivals) : Fresh part where
  sessions := (hPart.filterMap _).nodup h.sessions
  snapshots := (hPart.filterMap _).nodup h.snapshots

theorem session_new (h : Fresh (arrivals ++ [arrival])) (hId : arrival.sessionId? = some id) :
    id ∉ arrivals.filterMap Arrival.sessionId? := by
  have hNodup := h.sessions
  rw [List.filterMap_append, List.filterMap_cons_some hId] at hNodup
  intro hMem
  exact List.disjoint_of_nodup_append hNodup hMem List.mem_cons_self

theorem snapshot_new (h : Fresh (arrivals ++ [arrival])) (hId : arrival.snapshotId? = some id) :
    id ∉ arrivals.filterMap Arrival.snapshotId? := by
  have hNodup := h.snapshots
  rw [List.filterMap_append, List.filterMap_cons_some hId] at hNodup
  intro hMem
  exact List.disjoint_of_nodup_append hNodup hMem List.mem_cons_self

end Fresh

/-- Two sessions are created. A snapshot is taken of the first one, and it is deleted. -/
def comingsAndGoings : List Arrival :=
  [.plain "POST" "/machine" "[\"00000001\", null]" "a",
    .plain "POST" "/machine" "[\"00000001\", null]" "b",
    .plain "POST" "/machine/a/snapshot" "" "c",
    .plain "DELETE" "/machine/a"]

theorem fresh_comingsAndGoings : Fresh comingsAndGoings := by
  have hSessions : comingsAndGoings.filterMap Arrival.sessionId? = ["a", "b"] := by
    decide +kernel
  have hSnapshots : comingsAndGoings.filterMap Arrival.snapshotId? = ["c"] := by
    decide +kernel
  constructor
  · rw [hSessions]
    decide
  · rw [hSnapshots]
    decide

end Ls8.Service
