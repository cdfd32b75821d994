import Ls8.Proofs.Conservation
import Ls8.Proofs.Dispatch
import Ls8.Proofs.Text

/-!
# The metrics of handled requests

Two families of metrics are about requests, and both account for those that a handler answered.

* `recorded?`: the route and the status that a request is counted under. `labels_of_call`: they
  show its method, and its path with the id left out.
* `perform_ledger`, `next_ledger`: no handler counts anything, and every request that reaches one is
  counted once, when it has been answered.
* `Recorded`: the counters agree with the requests so far. `recorded_after`: they always do.
* `Accounted`: what the page shows for any labels. `requests_accounted`: that is what there was.
-/

namespace Ls8

namespace Counts

variable {κ : Type}

/-- How often a key was counted that satisfies something. -/
def totalOf (counts : Counts κ) (p : κ → Bool) : Nat :=
  ((counts.entries.filter fun entry => p entry.1).map Prod.snd).sum

theorem totalOf_increment [DecidableEq κ] (counts : Counts κ) (key : κ) (p : κ → Bool) :
    (counts.increment key).totalOf p = counts.totalOf p + if p key then 1 else 0 := by
  obtain ⟨entries⟩ := counts
  induction entries with
  | nil =>
    simp only [totalOf, increment, incrementEntry, List.filter_cons]
    split <;> rfl
  | cons entry rest ih =>
    obtain ⟨first, n⟩ := entry
    simp only [totalOf, increment, incrementEntry] at ih ⊢
    by_cases here : first = key
    · subst here
      rw [if_pos rfl, List.filter_cons, List.filter_cons]
      by_cases hKey : p first
      · simp [hKey]
        omega
      · simp [hKey]
    · rw [if_neg here, List.filter_cons, List.filter_cons]
      by_cases hFirst : p first
      · simp only [hFirst, if_true, List.map_cons, List.sum_cons, ih]
        omega
      · simp only [hFirst, Bool.false_eq_true, if_false, ih]

end Counts

namespace Service

open Ls8.Metrics (Family Sample sampleLine)

/-! ## Routes and their labels -/

namespace Route

/-- What a segment of a path looks like in an endpoint, at a place of its pattern. -/
def shown : Segment → String → String
  | .word _, segment => "/" ++ segment
  | .id, _ => "/" ++ ":id"

theorem foldl_of_bindSegments? {bound id : String} {pattern : List Segment}
    {segments : List String} (h : bindSegments? bound pattern segments = some id) (before : String) :
    pattern.foldl (fun text place => text ++ "/" ++ match place with
      | .word word => word
      | .id => ":id") before = before ++ String.join (List.zipWith shown pattern segments) := by
  induction pattern generalizing bound segments before with
  | nil => simp
  | cons place pattern ih =>
    cases segments with
    | nil => cases place <;> cases h
    | cons segment segments =>
      rw [List.foldl_cons, List.zipWith_cons_cons, String.join_cons]
      cases place with
      | word text =>
        rw [bindSegments?] at h
        split at h
        · next hSame => rw [ih h, hSame, shown, String.append_assoc, String.append_assoc,
            String.append_assoc]
        · cases h
      | id =>
        rw [bindSegments?] at h
        split at h
        · cases h
        · rw [ih h, shown, String.append_assoc, String.append_assoc, String.append_assoc]

/-- The endpoint of a route is the path of each of its requests, but for the id. -/
theorem endpoint_of_bind? {route : Route} {id : String} {request : Http.Request}
    (h : route.bind? request = some id) :
    route.endpoint = String.join (List.zipWith shown route.pattern request.segments) :=
  (foldl_of_bindSegments? h "").trans String.empty_append

end Route

namespace Metrics

theorem routeLabels_injective : Function.Injective routeLabels := by
  intro route other h
  have hDistinct : (Route.all.map routeLabels).Nodup := by decide +kernel
  exact List.inj_on_of_nodup_map hDistinct (Route.mem_all route) (Route.mem_all other) h

/-- The labels of a request but for its status are those of its route. -/
theorem filter_requestLabels (request : Route × Nat) :
    (requestLabels request).filter (·.1 != "status") = routeLabels request.1 := by
  simp [requestLabels, routeLabels]

theorem requestLabels_injective : Function.Injective requestLabels := by
  rintro ⟨route, status⟩ ⟨other, otherStatus⟩ h
  have hRoutes : routeLabels route = routeLabels other := by
    rw [← filter_requestLabels (route, status), h, filter_requestLabels]
  obtain rfl := routeLabels_injective hRoutes
  have hStatuses := List.append_cancel_left h
  simp only [List.cons.injEq, Prod.mk.injEq, true_and, and_true] at hStatuses
  rw [Text.repr_injective hStatuses]

/-- The counts of requests with some labels, over all statuses. -/
def sumOverStatuses (metrics : Metrics) (labels : List (String × String)) : Nat :=
  (((metrics.samplesOf "ls8_api_requests_total").filter fun sample =>
    sample.labels.filter (·.1 != "status") == labels).map Sample.count).sum

variable {κ : Type}

/-- Labels of no key are not shown. -/
theorem find?_samples_none {labelsOf : κ → List (String × String)}
    {labels : List (String × String)} (h : ∀ key, labelsOf key ≠ labels) (counts : Counts κ) :
    (samples counts labelsOf).find? (·.labels == labels) = none := by
  rw [List.find?_eq_none]
  intro sample hSample
  obtain ⟨entry, -, rfl⟩ := List.mem_map.mp hSample
  simpa using h entry.1

/-- The lines of the page. -/
def lines (metrics : Metrics) : List String := metrics.families.flatMap Family.lines

variable (metrics : Metrics)

/-- What is counted under the name of a family stands on its lines. -/
theorem mem_lines {family : Family} (hFamily : family ∈ metrics.families)
    (hSamples : metrics.samplesOf family.name = family.samples)
    {labels : List (String × String)} (hCounted : 0 < metrics.reading family.name labels)
    {line : String} (hLine : line ∈ Sample.lines family.name family.kind
      ⟨labels, metrics.reading family.name labels⟩) : line ∈ metrics.lines := by
  rw [reading, hSamples] at hCounted hLine
  cases hSample : family.samples.find? (·.labels == labels) with
  | none =>
    rw [hSample] at hCounted
    cases hCounted
  | some sample =>
    have hLabels := List.find?_some hSample
    have hMem : sample ∈ family.samples := List.mem_of_find?_eq_some hSample
    rw [hSample, Option.map_some, Option.getD_some, ← beq_iff_eq.mp hLabels] at hLine
    refine List.mem_flatMap.mpr ⟨family, hFamily, ?_⟩
    rw [Family.lines, if_neg (by simpa using List.ne_nil_of_mem hMem)]
    apply List.mem_append_right
    exact List.mem_flatMap.mpr ⟨sample, List.mem_mergeSort.mpr hMem, hLine⟩

theorem requestLine_mem_lines {labels : List (String × String)}
    (h : 0 < metrics.reading "ls8_api_requests_total" labels) :
    sampleLine "ls8_api_requests_total" labels
      (metrics.reading "ls8_api_requests_total" labels) ∈ metrics.lines :=
  metrics.mem_lines (.tail _ (.tail _ (.head _))) rfl h (.head _)

theorem durationLine_mem_lines {labels : List (String × String)}
    (h : 0 < metrics.reading "ls8_api_request_duration_seconds" labels) :
    sampleLine "ls8_api_request_duration_seconds_count" labels
      (metrics.reading "ls8_api_request_duration_seconds" labels) ∈ metrics.lines :=
  metrics.mem_lines (.tail _ (.head _)) rfl h (.tail _ (.head _))

theorem samplesOf_requests : metrics.samplesOf "ls8_api_requests_total" =
    samples metrics.requests requestLabels := rfl

theorem samplesOf_durations : metrics.samplesOf "ls8_api_request_duration_seconds" =
    samples metrics.timings routeLabels := rfl

theorem sumOverStatuses_eq (labels : List (String × String)) : metrics.sumOverStatuses labels =
    metrics.requests.totalOf fun key => routeLabels key.1 == labels := by
  rw [sumOverStatuses, samplesOf_requests, samples, List.filter_map, List.map_map, Counts.totalOf]
  simp only [Function.comp_def, filter_requestLabels]

end Metrics

/-! ## Requests are recorded -/

/-- What the counters of requests have come to. -/
def Metrics.ledger (metrics : Metrics) : Counts (Route × Nat) × Counts Route :=
  (metrics.requests, metrics.timings)

section

variable (service : Service) (supply : Supply)

/-- No handler counts requests by itself. -/
theorem perform_ledger (call : Call) :
    (service.perform supply call).1.metrics.ledger = service.metrics.ledger := by
  have hSession (id : String) (act : Session → Service × Answer)
      (h : ∀ session, (act session).1.metrics.ledger = service.metrics.ledger) :
      (service.withSession id act).1.metrics.ledger = service.metrics.ledger :=
    withSession_cases (motive := fun outcome => outcome.1.metrics.ledger = service.metrics.ledger)
      rfl fun session _ => h session
  cases call with
  | run request =>
    simp only [perform, runOnce]
    split <;> rfl
  | create request =>
    simp only [perform, create]
    split <;> rfl
  | inspect id | step id | execute id _ | snapshot id | delete id =>
    exact hSession id _ fun _ => rfl
  | readMemory id window =>
    refine hSession id _ fun session => ?_
    split <;> rfl
  | restore id request =>
    simp only [perform, restore]
    split
    · rfl
    · refine hSession id _ fun session => ?_
      split <;> rfl
  | list | metrics => rfl

end

/-- The route and the status that a request is counted under, with the response to it. -/
def recorded? (handled : Arrival × Http.Response) : Option (Route × Nat) :=
  (callOf? handled.1.request).map fun call => (call.route, handled.2.status)

/-- **A request that reaches a handler is counted once**, under the route of the handler and the
status of the response, and no other request is. -/
theorem next_ledger (service : Service) (arrival : Arrival) :
    (service.next arrival).metrics.ledger =
      match recorded? (arrival, service.reply arrival) with
      | some key => (service.metrics.requests.increment key, service.metrics.timings.increment key.1)
      | none => service.metrics.ledger := by
  cases hCall : callOf? arrival.request with
  | none =>
    rw [next_of_none hCall]
    simp only [recorded?, hCall, Option.map_none]
  | some call =>
    obtain ⟨hRequests, hTimings⟩ := Prod.mk.inj (perform_ledger service arrival.supply call)
    simp only [recorded?, hCall, Option.map_some, reply_of_call hCall, present_status]
    rw [next, handle_of_call hCall, ← hRequests, ← hTimings]
    rfl

/-- The counters of requests agree with the requests so far. -/
structure Recorded (metrics : Metrics) (handled : List (Arrival × Http.Response)) : Prop where
  requests (key : Route × Nat) :
    metrics.requests.count key = handled.countP fun one => recorded? one = some key
  timings (route : Route) :
    metrics.timings.count route = metrics.requests.totalOf fun key => key.1 = route
  total : metrics.requests.total = handled.countP fun one => (recorded? one).isSome

theorem Recorded.next {service : Service} {handled : List (Arrival × Http.Response)}
    (h : Recorded service.metrics handled) (arrival : Arrival) :
    Recorded (service.next arrival).metrics (handled ++ [(arrival, service.reply arrival)]) := by
  have hLedger := next_ledger service arrival
  cases hKey : recorded? (arrival, service.reply arrival) with
  | none =>
    rw [hKey] at hLedger
    obtain ⟨hRequests, hTimings⟩ := Prod.mk.inj hLedger
    constructor
    · intro key
      rw [hRequests, h.requests, List.countP_append]
      simp [hKey]
    · rw [hRequests, hTimings]
      exact h.timings
    · rw [hRequests, h.total, List.countP_append]
      simp [hKey]
  | some key =>
    rw [hKey] at hLedger
    obtain ⟨hRequests, hTimings⟩ := Prod.mk.inj hLedger
    constructor
    · intro other
      rw [hRequests, Counts.count_increment, h.requests, List.countP_append]
      simp [hKey, List.countP_cons, eq_comm]
    · intro route
      rw [hRequests, hTimings, Counts.count_increment, Counts.totalOf_increment, h.timings]
      simp [eq_comm]
    · rw [hRequests, Counts.total_increment, h.total, List.countP_append]
      simp [hKey]

theorem recorded_after (settings : Settings) (arrivals : List Arrival) :
    Recorded ((start settings).after arrivals).metrics ((start settings).replies arrivals) := by
  induction arrivals using List.reverseRecOn with
  | nil => exact ⟨fun _ => rfl, fun _ => rfl, rfl⟩
  | append_singleton arrivals arrival ih =>
    rw [after_append, replies_append]
    exact ih.next arrival

/-! ## What the page shows -/

/-- The page shows the requests so far: under any labels as many as have these labels, and as many
durations as requests of any status. -/
structure Accounted (metrics : Metrics) (handled : List (Arrival × Http.Response)) : Prop where
  requests (labels : List (String × String)) :
    metrics.reading "ls8_api_requests_total" labels =
      handled.countP fun one => (recorded? one).map Metrics.requestLabels = some labels
  durations (labels : List (String × String)) :
    metrics.reading "ls8_api_request_duration_seconds" labels = metrics.sumOverStatuses labels
  /-- Nothing else is counted. -/
  total : metrics.sum "ls8_api_requests_total" =
    handled.countP fun one => (recorded? one).isSome
  requestLine {labels : List (String × String)}
    (counted : 0 < metrics.reading "ls8_api_requests_total" labels) :
    sampleLine "ls8_api_requests_total" labels
      (metrics.reading "ls8_api_requests_total" labels) ∈ metrics.lines
  durationLine {labels : List (String × String)}
    (counted : 0 < metrics.reading "ls8_api_request_duration_seconds" labels) :
    sampleLine "ls8_api_request_duration_seconds_count" labels
      (metrics.reading "ls8_api_request_duration_seconds" labels) ∈ metrics.lines

theorem Recorded.accounted {metrics : Metrics} {handled : List (Arrival × Http.Response)}
    (h : Recorded metrics handled) : Accounted metrics handled where
  requests labels := by
    rw [Metrics.reading, Metrics.samplesOf_requests]
    by_cases hKey : ∃ key, Metrics.requestLabels key = labels
    · obtain ⟨key, rfl⟩ := hKey
      rw [Metrics.find?_samples Metrics.requestLabels_injective, h.requests]
      refine List.countP_congr fun one _ => ?_
      have hSame := (Option.map_injective Metrics.requestLabels_injective).eq_iff
        (a := recorded? one) (b := some key)
      simpa using hSame.symm
    · rw [not_exists] at hKey
      rw [Metrics.find?_samples_none hKey, Option.map_none, Option.getD_none, eq_comm,
        List.countP_eq_zero]
      intro one _
      simp [hKey]
  durations labels := by
    rw [Metrics.sumOverStatuses_eq, Metrics.reading, Metrics.samplesOf_durations]
    by_cases hRoute : ∃ route, Metrics.routeLabels route = labels
    · obtain ⟨route, rfl⟩ := hRoute
      rw [Metrics.find?_samples Metrics.routeLabels_injective, h.timings]
      simp only [beq_eq_decide, Metrics.routeLabels_injective.eq_iff]
    · rw [not_exists] at hRoute
      rw [Metrics.find?_samples_none hRoute]
      simp [Counts.totalOf, beq_eq_decide, hRoute]
  total := by
    rw [Metrics.sum, Metrics.samplesOf_requests, Metrics.sum_samples, h.total]
  requestLine := metrics.requestLine_mem_lines
  durationLine := metrics.durationLine_mem_lines

/-- A request that no handler gets: it comes from an origin that may not make it, or asks whether it
may be made, or no route accepts it. -/
def TurnedAway (request : Http.Request) : Prop :=
  (∃ what, Http.Cors.check policy request = .error what) ∨
    (∃ origin, Http.Cors.check policy request = .ok (.preflight origin)) ∨
      ∃ rejection, callOf request = .error rejection

theorem TurnedAway.callOf?_eq_none {request : Http.Request} (h : TurnedAway request) :
    callOf? request = none := by
  rcases h with ⟨what, hCheck⟩ | ⟨origin, hCheck⟩ | ⟨rejection, hCall⟩
  · simp only [callOf?, hCheck]
  · simp only [callOf?, hCheck]
  · unfold callOf?
    rw [hCall]
    split <;> rfl

theorem labels_of_call {request : Http.Request} {call : Call} (h : callOf? request = some call) :
    call.route.method = request.method ∧ call.route.endpoint =
      String.join (List.zipWith Route.shown call.route.pattern request.segments) := by
  obtain ⟨route, hMethod, id, hBind, hCall⟩ := route_of_call h
  rw [Call.route_of_call hCall]
  exact ⟨hMethod.symm, Route.endpoint_of_bind? hBind⟩

/-- **The metrics account for every request that a handler has answered**, and for no other one.
What they show under some labels is the number of the requests so far that have them: the method,
the path with `:id` in the place of the id, and the status of the response. A request that is turned
away changes nothing, and a request for the page gets it as it was before. -/
theorem requests_accounted (settings : Settings) (arrivals : List Arrival) :
    Accounted ((start settings).after arrivals).metrics ((start settings).replies arrivals) ∧
      (∀ request call, callOf? request = some call →
        call.route.method = request.method ∧ call.route.endpoint =
          String.join (List.zipWith Route.shown call.route.pattern request.segments)) ∧
      (∀ arrival, TurnedAway arrival.request →
        ((start settings).after arrivals).next arrival = (start settings).after arrivals ∧
          ∀ response, recorded? (arrival, response) = none) ∧
      ∀ arrival, callOf? arrival.request = some .metrics →
        (((start settings).after arrivals).reply arrival).status = 200 ∧
          (((start settings).after arrivals).reply arrival).body = .text (String.join
            (((start settings).after arrivals).metrics.lines.map (· ++ "\n"))) := by
  refine ⟨(recorded_after settings arrivals).accounted, fun _ _ => labels_of_call,
    fun arrival hAway => ?_, fun arrival hPage => ?_⟩
  · have hNone := hAway.callOf?_eq_none
    refine ⟨next_of_none hNone, fun response => ?_⟩
    rw [recorded?, hNone, Option.map_none]
  · rw [reply_of_call hPage, present_status, present_body]
    exact ⟨rfl, rfl⟩

example : ((start {}).after comingsAndGoings).metrics.reading "ls8_api_requests_total"
    [("endpoint", "/machine/:id/snapshot"), ("method", "POST"), ("status", "200")] = 1 := by
  decide +kernel

end Service

end Ls8
