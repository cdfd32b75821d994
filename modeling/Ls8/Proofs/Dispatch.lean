import Ls8.Proofs.Handling

/-!
# Dispatch

Which route gets a request, and that nobody else is concerned by it.

* `Route.overlap`: whether a path can have both of two patterns. `overlap_of_bindSegments?`: if one
  has, they overlap.
* `Fits`: a request with the path and the method of a route. `fits_unique`: it is only one route.
* `prefer_right_comm`: two rejections may change places if neither says as much as the other, or if
  they are the same.
* `dispatch_perm`: the order in which routes are tried makes no difference.
* `callOf?_of_accept`, `handle_of_unaccepted`: what becomes of a request that a route accepts, and of
  one that none does.
* `dispatch_unambiguous`: all of this in one statement.
-/

namespace Ls8.Service

open Http (Rejection)

namespace Route

theorem mem_all (route : Route) : route ∈ all := by
  cases route <;> decide

/-! ## Patterns -/

/-- Whether a path can have both of two patterns. The place of an id takes any word. -/
def overlap : List Segment → List Segment → Bool
  | [], [] => true
  | .word text :: pattern, .word other :: patternOther =>
    text == other && overlap pattern patternOther
  | .word _ :: pattern, .id :: patternOther => overlap pattern patternOther
  | .id :: pattern, _ :: patternOther => overlap pattern patternOther
  | _, _ => false

theorem exists_of_bindSegments?_cons {bound id segment : String} {place : Segment}
    {pattern : List Segment} {segments : List String}
    (h : bindSegments? bound (place :: pattern) (segment :: segments) = some id) :
    (∀ text, place = .word text → segment = text) ∧
      ∃ next, bindSegments? next pattern segments = some id := by
  cases place with
  | word text =>
    simp only [bindSegments?] at h
    split at h
    · next hSame =>
      refine ⟨?_, bound, h⟩
      rintro _ ⟨⟩
      exact hSame
    · cases h
  | id =>
    simp only [bindSegments?] at h
    split at h
    · cases h
    · refine ⟨?_, segment, h⟩
      rintro _ ⟨⟩

/-- Patterns overlap if there is a path that has both. -/
theorem overlap_of_bindSegments? {bound boundOther id other : String}
    {pattern patternOther : List Segment} {segments : List String}
    (h : bindSegments? bound pattern segments = some id)
    (hOther : bindSegments? boundOther patternOther segments = some other) :
    overlap pattern patternOther = true := by
  induction segments generalizing bound boundOther pattern patternOther with
  | nil =>
    cases pattern with
    | nil =>
      cases patternOther with
      | nil => rfl
      | cons place _ => cases place <;> cases hOther
    | cons place _ => cases place <;> cases h
  | cons segment segments ih =>
    cases pattern with
    | nil => cases h
    | cons place pattern =>
      cases patternOther with
      | nil => cases hOther
      | cons placeOther patternOther =>
        obtain ⟨hPlace, _, hRest⟩ := exists_of_bindSegments?_cons h
        obtain ⟨hPlaceOther, _, hRestOther⟩ := exists_of_bindSegments?_cons hOther
        have hOverlap := ih hRest hRestOther
        cases place with
        | id => exact hOverlap
        | word text =>
          cases placeOther with
          | id => exact hOverlap
          | word textOther =>
            have hSame : text = textOther := (hPlace _ rfl).symm.trans (hPlaceOther _ rfl)
            rw [overlap, hSame, beq_self_eq_true, Bool.true_and, hOverlap]

/-- No two routes with the same method have a path in common. -/
theorem eq_of_overlap {route other : Route} (hMethod : route.method = other.method)
    (h : overlap route.pattern other.pattern = true) : route = other := by
  have hAll : ∀ route ∈ all, ∀ other ∈ all, route.method = other.method →
      overlap route.pattern other.pattern = true → route = other := by decide +kernel
  exact hAll route route.mem_all other other.mem_all hMethod h

/-- The request has the path and the method of the route. -/
structure Fits (route : Route) (request : Http.Request) : Prop where
  path : ∃ id, route.bind? request = some id
  method : request.method = route.method

variable {request : Http.Request} {route other : Route}

/-- **A request fits one route at most.** -/
theorem fits_unique (h : Fits route request) (hOther : Fits other request) : route = other := by
  obtain ⟨⟨id, hBind⟩, hMethod⟩ := h
  obtain ⟨⟨idOther, hBindOther⟩, hMethodOther⟩ := hOther
  exact eq_of_overlap (hMethod.symm.trans hMethodOther) (overlap_of_bindSegments? hBind hBindOther)

theorem fits_of_accept {call : Call} (h : route.accept request = .ok call) : Fits route request := by
  obtain ⟨hMethod, id, hBind, -⟩ := call_of_accept h
  exact ⟨⟨id, hBind⟩, hMethod⟩

/-- A route that a request does not fit has little to say about it. -/
theorem fits_of_weight {rejection : Rejection} (h : route.accept request = .error rejection)
    (hWeight : 1 < rejection.weight) : Fits route request := by
  unfold accept at h
  split at h
  · cases h
    exact absurd hWeight (by decide)
  · next id hBind =>
    split at h
    · next hMethod => exact ⟨⟨id, hBind⟩, hMethod⟩
    · cases h
      exact absurd hWeight (by decide)

/-! ## The order of routes -/

theorem eq_of_weight_le {first second : Rejection} (h : first.weight ≤ 1)
    (hSame : first.weight = second.weight) : first = second := by
  cases first <;> cases second <;> simp_all [Rejection.weight, Rejection.status]

/-- Two routes that say as much about a request say the same. -/
theorem eq_of_weight_eq {first second : Rejection} (h : route.accept request = .error first)
    (hOther : other.accept request = .error second) (hSame : first.weight = second.weight) :
    first = second := by
  by_cases hWeight : first.weight ≤ 1
  · exact eq_of_weight_le hWeight hSame
  · have hFits : route = other :=
      fits_unique (fits_of_weight h (by omega)) (fits_of_weight hOther (by omega))
    subst hFits
    exact Except.error.inj (h.symm.trans hOther)

theorem prefer_right_comm {first second : Rejection}
    (h : first.weight = second.weight → first = second) (rejection : Rejection) :
    (rejection.prefer first).prefer second = (rejection.prefer second).prefer first := by
  by_cases hSame : first = second
  · rw [hSame]
  · have hOther : first.weight ≠ second.weight := mt h hSame
    unfold Rejection.prefer
    grind

/-- **The order in which routes are tried makes no difference.** -/
theorem dispatch_perm {routes routes' : List Route} (h : routes.Perm routes')
    (rejection : Rejection) :
    dispatch request rejection routes = dispatch request rejection routes' := by
  induction h generalizing rejection with
  | nil => rfl
  | cons route _ ih =>
    rw [dispatch, dispatch]
    split
    · rfl
    · exact ih _
  | swap route other rest =>
    simp only [dispatch]
    cases hRoute : route.accept request with
    | ok call =>
      cases hOther : other.accept request with
      | ok callOther =>
        have hFits := fits_unique (fits_of_accept hRoute) (fits_of_accept hOther)
        rw [hFits, hOther] at hRoute
        cases hRoute
        rfl
      | error rejection => rfl
    | error first =>
      cases hOther : other.accept request with
      | ok callOther => rfl
      | error second =>
        have hSame := eq_of_weight_eq hOther hRoute
        simp only [prefer_right_comm hSame]
  | trans _ _ ih ih' => exact (ih rejection).trans (ih' rejection)

end Route

/-! ## What becomes of a request -/

theorem Call.route_of_call {route : Route} {id : String} {request : Http.Request} {call : Call}
    (h : route.call id request = .ok call) : call.route = route := by
  cases route with
  | run | create | execute | readMemory | restore =>
    obtain ⟨_, -, rfl⟩ := exists_of_map_ok h
    rfl
  | inspect | step | snapshot | list | delete | metrics =>
    cases h
    rfl

theorem status_response (rejection : Rejection) : rejection.response.status = rejection.status := by
  cases rejection <;> rfl

theorem status_mem (rejection : Rejection) : rejection.status ∈ [404, 405, 400, 415, 403] := by
  cases rejection <;> simp [Rejection.status]

section

variable {request : Http.Request}

/-- A request for a route is no preflight. -/
theorem check_of_accept {route : Route} {call : Call} (h : route.accept request = .ok call) :
    Http.Cors.check policy request = .ok .sameOrigin ∨
      ∃ origin, Http.Cors.check policy request = .ok (.simple origin) := by
  have hMethod : request.method ≠ "OPTIONS" := by
    rw [(Route.fits_of_accept h).method]
    cases route <;> decide
  unfold Http.Cors.check
  split
  · exact Or.inl rfl
  · next origin _ => exact Or.inr ⟨origin, if_neg hMethod⟩

/-- A request makes the call of the route that accepts it, wherever that one stands. -/
theorem callOf?_of_accept {route : Route} {call : Call} (h : route.accept request = .ok call) :
    callOf? request = some call := by
  have hCall : callOf request = .ok call := by
    rw [callOf, Route.dispatch_perm (List.perm_cons_erase route.mem_all), Route.dispatch, h]
  obtain hCheck | ⟨origin, hCheck⟩ := check_of_accept h <;> rw [callOf?, hCheck, hCall] <;> rfl

/-- A request that no route accepts is answered without a look at the service. -/
theorem handle_of_unaccepted (h : ∀ (route : Route) call, route.accept request ≠ .ok call) :
    ∃ response, (response.status ∈ [404, 405, 400, 415, 403] ∨ response.status = 200 ∧
        ∃ origin, Http.Cors.check policy request = .ok (.preflight origin)) ∧
      ∀ service supply, handle service supply request = (service, response) := by
  have hRejected : ∃ rejection, callOf request = .error rejection := by
    cases hCall : callOf request with
    | error rejection => exact ⟨rejection, rfl⟩
    | ok call =>
      obtain ⟨route, -, hAccept⟩ := accept_of_dispatch hCall
      exact (h route call hAccept).elim
  obtain ⟨rejection, hCall⟩ := hRejected
  have hStatus (rejection : Rejection) :
      rejection.response.status ∈ [404, 405, 400, 415, 403] := by
    rw [status_response]
    exact status_mem rejection
  unfold handle
  rw [hCall]
  cases Http.Cors.check policy request with
  | error what => exact ⟨_, Or.inl (hStatus (.forbidden what)), fun _ _ => rfl⟩
  | ok kind =>
    cases kind with
    | preflight origin => exact ⟨_, Or.inr ⟨rfl, origin, rfl⟩, fun _ _ => rfl⟩
    | sameOrigin | simple origin => exact ⟨_, Or.inl (hStatus rejection), fun _ _ => rfl⟩

end

/-- **Dispatch is unambiguous, and refusals are neutral.** At most one route accepts a request, so
that it makes no difference in which order the routes are tried, and the call of that route is what
the service answers. A request that no route accepts, as it is with every preflight, is answered
with what is wrong with it or with what is allowed, and the service stays as it is: its sessions with
their consoles, the snapshots and all counts. -/
theorem dispatch_unambiguous (request : Http.Request) :
    (∀ (route other : Route) call callOther, route.accept request = .ok call →
      other.accept request = .ok callOther → route = other) ∧
    (∀ routes : List Route, routes.Perm Route.all →
      Route.dispatch request .notFound routes = callOf request) ∧
    (∀ (route : Route) call, route.accept request = .ok call → call.route = route ∧
      ∀ service supply, handle service supply request =
        ((service.answer supply call).1, present request (service.answer supply call).2)) ∧
    ((∀ (route : Route) call, route.accept request ≠ .ok call) ∨
        (∃ origin, Http.Cors.check policy request = .ok (.preflight origin)) →
      ∃ response, (response.status ∈ [404, 405, 400, 415, 403] ∨ response.status = 200 ∧
          ∃ origin, Http.Cors.check policy request = .ok (.preflight origin)) ∧
        ∀ service supply, handle service supply request = (service, response)) := by
  refine ⟨fun route other call callOther h hOther => ?_, fun routes h => ?_,
    fun route call h => ⟨?_, fun service supply => ?_⟩, fun h => ?_⟩
  · exact Route.fits_unique (Route.fits_of_accept h) (Route.fits_of_accept hOther)
  · exact Route.dispatch_perm h .notFound
  · obtain ⟨-, id, -, hCall⟩ := call_of_accept h
    exact Call.route_of_call hCall
  · exact handle_of_call (callOf?_of_accept h) service supply
  · refine handle_of_unaccepted ?_
    rcases h with h | ⟨origin, hPreflight⟩
    · exact h
    · intro route call hAccept
      obtain hCheck | ⟨_, hCheck⟩ := check_of_accept hAccept <;> cases hPreflight.symm.trans hCheck

end Ls8.Service
