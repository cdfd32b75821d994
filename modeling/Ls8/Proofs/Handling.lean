import Ls8.Service.Basic
import Ls8.Proofs.Registry

/-!
# What becomes of a request

A request either reaches the handler of one call or is turned away.

* `callOf?`: the call that a request makes. `handle_of_call`, `handle_of_none`: what the service
  does with it, and that a request which is turned away changes nothing.
* `call_of_accept`, `route_of_call`: the route of a call has the request's method, and its path.
* `segments_of_call`: a call about a session comes from a path that names the session, and any other
  call from a path of one word (`length_segments_of_call`).
-/

namespace Ls8.Service

/-! ## Calls -/

/-- The call that a request makes, if it reaches a handler. -/
def callOf? (request : Http.Request) : Option Call :=
  match Http.Cors.check policy request with
  | .error _ | .ok (.preflight _) => none
  | .ok _ => (callOf request).toOption

/-- The response with an answer, marked for the origin that the request came from. -/
def present (request : Http.Request) (answer : Answer) : Http.Response :=
  match Http.Cors.check policy request with
  | .ok (.simple origin) => Http.Cors.expose origin answer.response
  | _ => answer.response

section

variable {request : Http.Request} {call : Call}

theorem handle_of_call (h : callOf? request = some call) (service : Service) (supply : Supply) :
    service.handle supply request = ((service.answer supply call).1,
      present request (service.answer supply call).2) := by
  unfold callOf? at h
  unfold handle present
  cases hCheck : Http.Cors.check policy request with
  | error what => simp [hCheck] at h
  | ok kind =>
    cases hCall : callOf request with
    | error rejection => cases kind <;> simp [hCheck, hCall, Except.toOption] at h
    | ok made =>
      cases kind with
      | preflight origin => simp [hCheck] at h
      | sameOrigin | simple origin =>
        simp only [hCheck, hCall, Except.toOption, Option.some.injEq] at h
        subst h
        rfl

/-- A request that reaches no handler is answered without a look at the service. -/
theorem handle_of_none (h : callOf? request = none) :
    ∃ response, ∀ service supply, handle service supply request = (service, response) := by
  unfold callOf? at h
  unfold handle
  cases hCheck : Http.Cors.check policy request with
  | error what => exact ⟨_, fun _ _ => rfl⟩
  | ok kind =>
    cases kind with
    | preflight origin => exact ⟨_, fun _ _ => rfl⟩
    | sameOrigin | simple origin =>
      cases hCall : callOf request with
      | error rejection => exact ⟨_, fun _ _ => rfl⟩
      | ok made => simp [hCheck, hCall, Except.toOption] at h

end

theorem response_status (answer : Answer) : answer.response.status = answer.status := by
  cases answer <;> rfl

theorem present_status (request : Http.Request) (answer : Answer) :
    (present request answer).status = answer.status := by
  rw [← response_status]
  unfold present
  split <;> rfl

theorem present_body (request : Http.Request) (answer : Answer) :
    (present request answer).body = answer.response.body := by
  unfold present
  split <;> rfl

theorem status_refused_ne (problem : Problem) : (Answer.refused problem).status ≠ 200 := by
  cases problem <;> exact nofun

/-! ## Sessions named in paths -/

/-- The id of the session that a call is about. -/
def Call.session? : Call → Option String
  | .inspect id | .step id | .execute id _ | .readMemory id _ | .snapshot id | .restore id _
  | .delete id => some id
  | .run _ | .create _ | .list | .metrics => none

theorem accept_of_dispatch {request : Http.Request} {call : Call} {rejection : Http.Rejection}
    {routes : List Route} (h : Route.dispatch request rejection routes = .ok call) :
    ∃ route ∈ routes, route.accept request = .ok call := by
  induction routes generalizing rejection with
  | nil => cases h
  | cons route rest ih =>
    rw [Route.dispatch] at h
    cases hAccept : route.accept request with
    | ok made =>
      rw [hAccept] at h
      cases h
      exact ⟨route, List.mem_cons_self, hAccept⟩
    | error other =>
      rw [hAccept] at h
      obtain ⟨found, hMem, hFound⟩ := ih h
      exact ⟨found, List.mem_cons_of_mem _ hMem, hFound⟩

theorem call_of_accept {route : Route} {request : Http.Request} {call : Call}
    (h : route.accept request = .ok call) : request.method = route.method ∧
      ∃ id, route.bind? request = some id ∧ route.call id request = .ok call := by
  unfold Route.accept at h
  split at h
  · cases h
  · rename_i id hBind
    split at h
    · next hMethod => exact ⟨hMethod, id, hBind, h⟩
    · cases h

/-- A request that reaches a handler does so by a route, whose method it has, and whose pattern its
path has. -/
theorem route_of_call {request : Http.Request} {call : Call} (h : callOf? request = some call) :
    ∃ route : Route, request.method = route.method ∧
      ∃ id, route.bind? request = some id ∧ route.call id request = .ok call := by
  unfold callOf? at h
  split at h
  · cases h
  · cases h
  · cases hCall : callOf request with
    | error rejection => simp [hCall, Except.toOption] at h
    | ok made =>
      simp only [hCall, Except.toOption, Option.some.injEq] at h
      subst h
      obtain ⟨route, -, hAccept⟩ := accept_of_dispatch hCall
      exact ⟨route, call_of_accept hAccept⟩

theorem exists_of_map_ok {α β : Type} {f : α → β} {read : Except Http.Rejection α} {b : β}
    (h : f <$> read = .ok b) : ∃ a, read = .ok a ∧ b = f a := by
  cases read with
  | error rejection => cases h
  | ok a =>
    cases h
    exact ⟨a, rfl, rfl⟩

/-- A route to calls about sessions begins with the word for them and the place of the id. -/
theorem session_of_call {route : Route} {id other : String} {request : Http.Request} {call : Call}
    (h : route.call id request = .ok call) (hSession : call.session? = some other) :
    other = id ∧ ∃ words : List String,
      route.pattern = .word "machine" :: .id :: words.map .word := by
  cases route with
  | run | create =>
    obtain ⟨_, -, rfl⟩ := exists_of_map_ok h
    cases hSession
  | list | metrics =>
    cases h
    cases hSession
  | inspect | delete =>
    cases h
    cases hSession
    exact ⟨rfl, [], rfl⟩
  | step | snapshot =>
    cases h
    cases hSession
    exact ⟨rfl, [_], rfl⟩
  | execute | readMemory | restore =>
    obtain ⟨_, -, rfl⟩ := exists_of_map_ok h
    cases hSession
    exact ⟨rfl, [_], rfl⟩

theorem bindSegments?_words {bound id : String} {words segments : List String}
    (h : Route.bindSegments? bound (words.map .word) segments = some id) : id = bound := by
  induction words generalizing segments with
  | nil =>
    cases segments with
    | nil =>
      cases h
      rfl
    | cons segment segments => cases h
  | cons word words ih =>
    cases segments with
    | nil => cases h
    | cons segment segments =>
      rw [List.map_cons, Route.bindSegments?] at h
      split at h
      · exact ih h
      · cases h

/-- The path of a request that makes a call about a session names that session. -/
theorem segments_of_call {request : Http.Request} {call : Call} {id : String}
    (h : callOf? request = some call) (hSession : call.session? = some id) :
    ∃ rest, request.segments = "machine" :: id :: rest := by
  obtain ⟨route, -, bound, hBind, hCall⟩ := route_of_call h
  obtain ⟨rfl, words, hPattern⟩ := session_of_call hCall hSession
  rw [Route.bind?, hPattern] at hBind
  generalize request.segments = segments at hBind ⊢
  match segments, hBind with
  | [], hBind => cases hBind
  | [_], hBind => simp [Route.bindSegments?] at hBind
  | first :: second :: rest, hBind =>
    simp only [Route.bindSegments?] at hBind
    split at hBind
    · split at hBind
      · cases hBind
      · rw [bindSegments?_words hBind, ‹first = "machine"›]
        exact ⟨rest, rfl⟩
    · cases hBind

theorem length_of_bindSegments? {bound id text : String} {segments : List String}
    (h : Route.bindSegments? bound [.word text] segments = some id) : segments.length = 1 := by
  match segments, h with
  | [], h => cases h
  | [_], _ => rfl
  | _ :: _ :: _, h =>
    rw [Route.bindSegments?] at h
    split at h <;> cases h

/-- The path of any other request that makes a call is a single word. -/
theorem length_segments_of_call {request : Http.Request} {call : Call}
    (h : callOf? request = some call) (hSession : call.session? = none) :
    request.segments.length = 1 := by
  obtain ⟨route, -, bound, hBind, hCall⟩ := route_of_call h
  cases route with
  | run | create | list | metrics => exact length_of_bindSegments? hBind
  | inspect | step | snapshot | delete =>
    cases hCall
    cases hSession
  | execute | readMemory | restore =>
    obtain ⟨_, -, rfl⟩ := exists_of_map_ok hCall
    cases hSession

end Ls8.Service
