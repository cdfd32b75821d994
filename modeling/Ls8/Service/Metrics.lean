import Ls8.Metrics.Exposition
import Ls8.Metrics.Usage
import Ls8.Service.Route

/-!
# Metrics of the service

What the machines have executed, which requests were handled, and how many sessions there
are. `Metrics.page` shows it, the families in the order of their names.
-/

namespace Ls8.Service

structure Metrics where
  usage : Usage := {}
  requests : Counts (Route × Nat) := {}
  timings : Counts Route := {}
  activeSessions : Nat := 0
  deriving DecidableEq

namespace Metrics

open Ls8.Metrics (Family Sample)

def recordRequest (metrics : Metrics) (route : Route) (status : Nat) : Metrics :=
  { metrics with
    requests := metrics.requests.increment (route, status)
    timings := metrics.timings.increment route }

/-- Samples of some counters under the labels of their keys. -/
def samples {κ : Type} (counts : Counts κ) (labels : κ → List (String × String)) : List Sample :=
  counts.entries.map fun (key, count) => { labels := labels key, count }

def opcodeLabels (opcode : Opcode) : List (String × String) := [("instruction", opcode.mnemonic)]

def modeLabels (mode : AluMode) : List (String × String) := [("alu_mode", mode.name)]

def routeLabels (route : Route) : List (String × String) :=
  [("endpoint", route.endpoint), ("method", route.method)]

def requestLabels (request : Route × Nat) : List (String × String) :=
  routeLabels request.1 ++ [("status", toString request.2)]

def families (metrics : Metrics) : List Family :=
  [{ name := "ls8_active_machines"
     help := "Number of live machine sessions"
     kind := .gauge
     samples := [{ count := metrics.activeSessions }] },
   { name := "ls8_api_request_duration_seconds"
     help := "API request duration"
     kind := .histogram
     samples := samples metrics.timings routeLabels },
   { name := "ls8_api_requests_total"
     help := "Total number of API requests"
     kind := .counter
     samples := samples metrics.requests requestLabels },
   { name := "ls8_instruction_duration_seconds"
     help := "Time spent executing instructions"
     kind := .histogram
     samples := samples metrics.usage.timings opcodeLabels },
   { name := "ls8_instructions_total"
     help := "Total number of LS-8 instructions executed by mnemonic"
     kind := .counter
     samples := samples metrics.usage.instructions opcodeLabels },
   { name := "ls8_programs_run_total"
     help := "Total number of programs run to completion"
     kind := .counter
     samples := samples metrics.usage.programs modeLabels },
   { name := "ls8_steps_total"
     help := "Total number of fetch-decode-execute steps"
     kind := .counter
     samples := [{ count := metrics.usage.steps }] }]

def page (metrics : Metrics) : String := Ls8.Metrics.page metrics.families

end Metrics

end Ls8.Service
