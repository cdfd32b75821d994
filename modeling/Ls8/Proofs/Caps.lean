import Ls8.Proofs.Conservation

/-!
# The cap on instructions

The settings of a service say how many instructions one request may execute.

* `Settings.read_maxSteps`: what the settings can say.
* `Limited`, `Confined`: no machine of the service and no snapshot has a higher limit than that.
  `confined_after`: requests cannot change this.
* `executions`: the number of instructions that a request executes, which the page and the response
  show. `executions_run`, `executions_steps`, `executions_of_quiet`: how many at most, by the kind
  of the request.
* `capped`: all of this about every request that a service gets.
-/

namespace Ls8

/-! ## Settings -/

namespace Service

namespace Settings

theorem setting_ok {α : Type} {lookup : String → Option String} {key : String}
    {read : String → Option α} {default found : α}
    (h : setting lookup key read default = .ok found) :
    found = default ∨ ∃ value, read value = some found := by
  unfold setting at h
  split at h
  · cases h
    exact Or.inl rfl
  · next value _ =>
    split at h
    · next hRead =>
      cases h
      exact Or.inr ⟨value, hRead⟩
    · cases h

/-- The cap is at least one instruction. -/
theorem read_maxSteps {lookup : String → Option String} {settings : Settings}
    (h : read lookup = .ok settings) : 1 ≤ settings.maxSteps.toNat := by
  unfold read at h
  simp only [bind, Except.bind, pure, Except.pure] at h
  split at h
  · cases h
  · split at h
    · cases h
    · next maxSteps hSetting =>
      cases h
      rcases setting_ok hSetting with hDefault | ⟨value, hValue⟩
      · have hStandard : maxSteps = 1000000 := hDefault
        show 1 ≤ maxSteps.toNat
        rw [hStandard]
        decide
      · exact UInt64.lt_iff_toNat_lt.mp (of_decide_eq_true (Option.filter_eq_some_iff.mp hValue).2)

end Settings

/-! ## Limits of machines and snapshots -/

/-- The number of instructions that a run may execute: as many as it asks for, if it does, up to the
cap. -/
def runBound (cap : UInt64) : (asked : Option UInt64) → UInt64
  | none => cap
  | some asked => if asked ≤ cap then asked else cap

theorem runLimit_eq (settings : Settings) (asked : Option UInt64) :
    settings.runLimit asked = runBound settings.maxSteps asked := by
  cases asked <;> rfl

theorem runBound_le (cap : UInt64) (asked : Option UInt64) : runBound cap asked ≤ cap := by
  cases asked with
  | none => exact UInt64.le_refl cap
  | some asked =>
    rw [runBound]
    split
    · assumption
    · exact UInt64.le_refl cap

/-- Runs have a limit, which is not above the cap. -/
def Limited (cap : UInt64) (config : Config) : Prop :=
  ∃ limit, config.maxSteps = some limit ∧ limit ≤ cap

theorem machineConfig_limited (settings : Settings) (corrected : Option Bool)
    (maxSteps : Option UInt64) :
    Limited settings.maxSteps (settings.machineConfig corrected maxSteps) :=
  ⟨_, rfl, runLimit_eq settings maxSteps ▸ runBound_le settings.maxSteps maxSteps⟩

/-- All machines and all snapshots that are kept have limits that are not above the cap. -/
structure Confined (cap : UInt64) (held : Holdings) : Prop where
  sessions : ∀ entry ∈ held.sessions.entries, Limited cap entry.2.machine.config
  snapshots : ∀ entry ∈ held.snapshots.entries, Limited cap entry.2.state.config

/-- Executing instructions leaves the limit alone. -/
theorem execute_config (count : Nat) (session : Session) (instruments : Instruments) :
    (session.execute count instruments).session.machine.config = session.machine.config := by
  have hStep (before : Session) (instruments : Instruments) :
      (before.step instruments).session.machine.config = before.machine.config := by
    rw [Session.step, Session.perform_machine]
    exact Machine.step_config (before.rig instruments)
  have hSteps := Session.executeFrom_keeps
    (P := fun later => later.machine.config = session.machine.config)
    (fun before instruments h => (hStep before instruments).trans h) rfl 0 count instruments
  exact hSteps.1

/-- A restored machine has the limit of the snapshot. -/
theorem restore_config {snapshot : Snapshot} {session restored : Session}
    (h : Session.restore snapshot session = .ok () restored) :
    restored.machine.config = snapshot.state.config := by
  obtain ⟨machine, createdAt, console⟩ := session
  unfold Session.restore at h
  cases hRestore : snapshot.restore machine with
  | error error after => simp [hRestore] at h
  | ok _ after =>
    simp only [hRestore] at h
    cases h
    obtain ⟨_, _, -, hRest⟩ := Action.bind_ok hRestore
    obtain ⟨_, _, -, hModified⟩ := Action.bind_ok hRest
    cases hModified
    rfl

section

variable {service : Service}

/-- **No call gives a machine or a snapshot a higher limit.** -/
theorem Effect.confined {supply : Supply} {call : Call} {answer : Answer} {held : Holdings}
    (h : Effect service supply call answer held)
    (hBefore : Confined service.settings.maxSteps service.holdings) :
    Confined service.settings.maxSteps held := by
  cases h with
  | created made =>
    obtain ⟨image, machine, -, hLoad, rfl⟩ := Session.ofImage_ok made
    refine ⟨fun entry hEntry => ?_, hBefore.snapshots⟩
    rcases Registry.mem_entries_put hEntry with rfl | hOld
    · show Limited _ machine.config
      rw [(Session.load_ok hLoad).1]
      exact machineConfig_limited _ _ _
    · exact hBefore.sessions entry hOld
  | executed asks found =>
    refine ⟨fun entry hEntry => ?_, hBefore.snapshots⟩
    rcases Registry.mem_entries_put hEntry with rfl | hOld
    · dsimp only
      rw [execute_config]
      exact hBefore.sessions _ (Registry.mem_entries_of_find? found)
    · exact hBefore.sessions entry hOld
  | captured found =>
    refine ⟨hBefore.sessions, fun entry hEntry => ?_⟩
    rcases Registry.mem_entries_put hEntry with rfl | hOld
    · exact hBefore.sessions _ (Registry.mem_entries_of_find? found)
    · exact hBefore.snapshots entry hOld
  | restored stored own found succeeds =>
    refine ⟨fun entry hEntry => ?_, hBefore.snapshots⟩
    rcases Registry.mem_entries_put hEntry with rfl | hOld
    · dsimp only
      rw [restore_config succeeds]
      exact hBefore.snapshots _ (Registry.mem_entries_of_find? stored)
    · exact hBefore.sessions entry hOld
  | deleted found =>
    exact ⟨fun entry hEntry => hBefore.sessions entry (List.mem_of_mem_filter hEntry),
      fun entry hEntry => hBefore.snapshots entry (List.mem_of_mem_filter hEntry)⟩
  | kept => exact hBefore

theorem confined_next (arrival : Arrival)
    (h : Confined service.settings.maxSteps service.holdings) :
    Confined service.settings.maxSteps (service.next arrival).holdings := by
  cases hCall : callOf? arrival.request with
  | none =>
    rw [next_of_none hCall]
    exact h
  | some call => exact (next_effect hCall).confined h

/-- **Nor do requests in a row.** -/
theorem confined_after (arrivals : List Arrival)
    (h : Confined service.settings.maxSteps service.holdings) :
    Confined service.settings.maxSteps (service.after arrivals).holdings := by
  induction arrivals generalizing service with
  | nil => exact h
  | cons arrival rest ih =>
    have hNext := confined_next arrival h
    rw [← next_settings] at hNext ⊢
    exact ih hNext

end

/-! ## Instructions of a request -/

/-- The number of instructions that a request executes: the page shows as many more of them than
before. -/
def executions (service : Service) (arrival : Arrival) : Nat :=
  (service.next arrival).metrics.reading "ls8_steps_total" [] -
    service.metrics.reading "ls8_steps_total" []

section

variable {service : Service} {arrival : Arrival} {request : RunRequest} {session : Session}

theorem reading_next (service : Service) (arrival : Arrival) :
    (service.next arrival).metrics.reading "ls8_steps_total" [] =
      service.metrics.reading "ls8_steps_total" [] +
        (service.attempts arrival).countP Rig.succeeds := by
  rw [Metrics.reading_steps, Metrics.reading_steps, (counted_request service arrival).gains.steps,
    Rig.length_executed]

/-- They are the attempts of the request that succeed. -/
theorem executions_eq (service : Service) (arrival : Arrival) :
    service.executions arrival = (service.attempts arrival).countP Rig.succeeds := by
  rw [executions, reading_next, Nat.add_sub_cancel_left]

theorem executions_of_call {call : Call} (h : callOf? arrival.request = some call) :
    service.executions arrival =
      (service.callAttempts arrival.supply call).countP Rig.succeeds := by
  simp only [executions_eq, attempts, h]

/-- The answer tells how many instructions were executed. -/
theorem executions_answered {call : Call} (h : callOf? arrival.request = some call) :
    service.executions arrival = (service.perform arrival.supply call).2.stepsExecuted := by
  rw [executions_of_call h]
  exact (perform_counted service arrival.supply call).shown.symm

theorem limit_of_made (h : service.madeFor arrival.supply request = .ok session) :
    (session.rig service.instruments).machine.config.maxSteps =
      some (runBound service.settings.maxSteps request.maxSteps) := by
  rw [← runLimit_eq]
  exact congrArg Config.maxSteps (config_of_made h).1

/-- A run executes no more than it is asked for, and no more than the cap. -/
theorem executions_run (h : callOf? arrival.request = some (.run request)) :
    service.executions arrival ≤ (runBound service.settings.maxSteps request.maxSteps).toNat := by
  rw [executions_of_call h]
  cases hMade : service.madeFor arrival.supply request with
  | error error =>
    simp only [callAttempts, hMade]
    exact Nat.zero_le _
  | ok session =>
    obtain ⟨ended, ends⟩ := run?_of_made hMade
    obtain ⟨n, hAttempts, hAllowed, -⟩ := Rig.attempts?_of_run? ends
    have hCount : ((session.rig service.instruments).departures n).countP Rig.succeeds ≤ n :=
      List.countP_le_length.trans_eq (Rig.length_departures _ n)
    simp only [callAttempts, hMade, hAttempts, Option.getD_some]
    exact hCount.trans ((Config.allows_iff (limit_of_made hMade)).mp hAllowed)

/-- A run of a program that goes on until the limit ends there, and says so. -/
theorem runOnce_of_exhausted {limit : UInt64}
    (hMade : service.madeFor arrival.supply request = .ok session)
    (hLimit : runBound service.settings.maxSteps request.maxSteps = limit)
    (hp : session.machine.alone.Proceeds limit.toNat)
    (hr : (session.machine.alone.after limit.toNat).machine.halted = false) :
    ∃ report, (service.runOnce arrival.supply request).2 = .ran report ∧
      report.fault = some (.stepLimitExceeded limit) ∧ report.stepsExecuted = limit.toNat := by
  have hBisimulation := Rig.twin_bisimulation Session.bothEndless_congruence
  have hTwin := Session.alone_twin session service.instruments
  have hProceeds := hBisimulation.proceeds hTwin hp
  have hRunning := (hBisimulation.halted (hBisimulation.after hTwin limit.toNat)).trans hr
  have ends := Rig.run?_of_exhausted (hLimit ▸ limit_of_made hMade) hProceeds hRunning
  obtain ⟨-, report, hAnswer, hReport⟩ := runOnce_of_made hMade ends
  have hSteps : Grown 0 ((session.rig service.instruments).after limit.toNat).machine.steps
      limit.toNat := (config_of_made hMade).2 ▸ hProceeds.bookkeeping.1
  refine ⟨report, hAnswer, hReport.fault, hReport.steps.trans ?_⟩
  exact hSteps.toNat_of_zero limit.toNat_lt

/-- A request for steps executes no more than the service allows it, and less only if the machine
has halted or fails. -/
theorem executions_steps {call : Call} {id : String}
    (hCall : callOf? arrival.request = some call) (asks : call.steps? = some id) :
    service.executions arrival ≤ service.settings.allowance call ∧
      ∀ session, service.sessions.find? id = some session →
        service.executions arrival < service.settings.allowance call →
        ∃ report, service.exchange? arrival = some ⟨call, .executed report⟩ ∧
          (report.halted = true ∨ report.fault.isSome = true) := by
  rw [executions_answered hCall, exchange?_of_call hCall, perform_of_steps asks]
  cases hFound : service.sessions.find? id with
  | none =>
    rw [execute, withSession_of_none hFound]
    refine ⟨Nat.zero_le _, ?_⟩
    rintro _ ⟨⟩
  | some session =>
    rw [execute_of_some hFound]
    obtain ⟨-, hLe, hShort⟩ := Session.execute_accounts (service.settings.allowance call) session
      service.instruments
    exact ⟨hLe, fun _ _ hLess => ⟨_, rfl, hShort hLess⟩⟩

end

/-! ## Capped requests -/

/-- A request executes no more instructions than the cap, and no more than its kind allows. -/
structure Capped (cap : UInt64) (service : Service) (arrival : Arrival) : Prop where
  /-- The page counts the instructions of the request. -/
  counted : (service.next arrival).metrics.reading "ls8_steps_total" [] =
    service.metrics.reading "ls8_steps_total" [] + service.executions arrival
  /-- The response tells them. -/
  shown : (service.reply arrival).stepsShown = service.executions arrival
  all : service.executions arrival ≤ cap.toNat
  run {request : RunRequest} (asked : callOf? arrival.request = some (.run request)) :
    service.executions arrival ≤ (runBound cap request.maxSteps).toNat
  /-- A run of a program that neither halts nor fails within its limit uses that up, and reports
  it. -/
  exhausted {request : RunRequest} {session : Session}
    (asked : callOf? arrival.request = some (.run request))
    (made : service.madeFor arrival.supply request = .ok session)
    (running : ∀ n ≤ (runBound cap request.maxSteps).toNat, ¬session.machine.alone.HaltsAt n)
    (unfailing : ∀ k < (runBound cap request.maxSteps).toNat, ∀ fault,
      ¬session.machine.alone.FaultsAt k fault) :
    service.executions arrival = (runBound cap request.maxSteps).toNat ∧
      ∃ report, service.exchange? arrival = some ⟨.run request, .ran report⟩ ∧
        report.fault = some (.stepLimitExceeded (runBound cap request.maxSteps)) ∧
        report.stepsExecuted = (runBound cap request.maxSteps).toNat
  execute {id : String} {request : ExecuteRequest}
    (asked : callOf? arrival.request = some (.execute id request)) :
    service.executions arrival ≤ min request.steps (min cap.toNat (2 ^ 32 - 1))
  short {id : String} {request : ExecuteRequest} {session : Session}
    (asked : callOf? arrival.request = some (.execute id request))
    (found : service.sessions.find? id = some session)
    (less : service.executions arrival < min request.steps (min cap.toNat (2 ^ 32 - 1))) :
    ∃ report, service.exchange? arrival = some ⟨.execute id request, .executed report⟩ ∧
      (report.halted = true ∨ report.fault.isSome = true)
  step {id : String} (asked : callOf? arrival.request = some (.step id)) :
    service.executions arrival ≤ 1
  other (quiet : ∀ call, callOf? arrival.request = some call → call.executes = false) :
    service.executions arrival = 0
  /-- The machine that a run is about to use is limited as well. -/
  made {request : RunRequest} {session : Session}
    (made : service.madeFor arrival.supply request = .ok session) :
    Limited cap session.machine.config

theorem executions_of_quiet {service : Service} {arrival : Arrival}
    (h : ∀ call, callOf? arrival.request = some call → call.executes = false) :
    service.executions arrival = 0 := by
  cases hCall : callOf? arrival.request with
  | none => simp only [executions_eq, attempts, hCall, List.countP_nil]
  | some call =>
    rw [executions_of_call hCall, callAttempts_of_quiet (h call hCall), List.countP_nil]

theorem allowance_execute (settings : Settings) (id : String) (request : ExecuteRequest) :
    settings.allowance (.execute id request) =
      min request.steps (min settings.maxSteps.toNat (2 ^ 32 - 1)) := rfl

theorem capped_request {service : Service} (hCap : 1 ≤ service.settings.maxSteps.toNat)
    (arrival : Arrival) : Capped service.settings.maxSteps service arrival := by
  have hExecute {id : String} {request : ExecuteRequest}
      (asked : callOf? arrival.request = some (.execute id request)) := by
    have hSteps := @executions_steps service _ _ _ asked rfl
    rw [allowance_execute] at hSteps
    exact hSteps
  have hStep {id : String} (asked : callOf? arrival.request = some (.step id)) :
      service.executions arrival ≤ 1 := (executions_steps asked rfl).1
  constructor
  case counted => rw [executions_eq, reading_next]
  case shown => rw [executions_eq, (counted_request service arrival).shown]
  case all =>
    cases hCall : callOf? arrival.request with
    | none =>
      rw [executions_of_quiet fun call h => by rw [hCall] at h; cases h]
      exact Nat.zero_le _
    | some call =>
      cases call with
      | run request =>
        exact (executions_run hCall).trans (UInt64.le_iff_toNat_le.mp (runBound_le _ _))
      | execute id request => exact (hExecute hCall).1.trans (by omega)
      | step id => exact (hStep hCall).trans hCap
      | _ =>
        rw [executions_of_quiet fun call h => by rw [hCall] at h; cases h; rfl]
        exact Nat.zero_le _
  case run => exact executions_run
  case exhausted =>
    intro request session asked made running unfailing
    obtain ⟨hp, hr⟩ := Rig.proceeds_iff.mpr ⟨running, unfailing⟩
    obtain ⟨report, hAnswer, hFault, hSteps⟩ := runOnce_of_exhausted made rfl hp hr
    have hPerform : (service.perform arrival.supply (.run request)).2 = .ran report := hAnswer
    rw [executions_answered asked, exchange?_of_call asked, hPerform]
    exact ⟨hSteps, report, rfl, hFault, hSteps⟩
  case execute => exact fun asked => (hExecute asked).1
  case short => exact fun asked found => (hExecute asked).2 _ found
  case step => exact hStep
  case other => exact executions_of_quiet
  case made =>
    intro request session made
    rw [(config_of_made made).1]
    exact machineConfig_limited _ _ _

/-- **No request executes more than the cap.** Take any settings that the service accepts, and any
requests: whatever sessions were restored from, their machines and the snapshots that are kept have
limits up to the cap, so that it holds for the next request as well. -/
theorem capped {lookup : String → Option String} {settings : Settings}
    (accepted : Settings.read lookup = .ok settings) (arrivals : List Arrival) :
    1 ≤ settings.maxSteps.toNat ∧
      Confined settings.maxSteps ((start settings).after arrivals).holdings ∧
      ∀ arrival, Capped settings.maxSteps ((start settings).after arrivals) arrival := by
  have hCap := Settings.read_maxSteps accepted
  have hSettings : ((start settings).after arrivals).settings = settings := after_settings arrivals
  have hStart : Confined (start settings).settings.maxSteps (start settings).holdings :=
    ⟨nofun, nofun⟩
  refine ⟨hCap, confined_after arrivals hStart, fun arrival => ?_⟩
  have hPositive : 1 ≤ ((start settings).after arrivals).settings.maxSteps.toNat := by
    rw [hSettings]
    exact hCap
  have hCapped := capped_request hPositive arrival
  rw [hSettings] at hCapped
  exact hCapped

/-- The settings that hold if nothing is set. -/
theorem capped_standard : Settings.read (fun _ => none) = .ok {} ∧
    Capped 1000000 ((start {}).after comingsAndGoings)
      (.plain "POST" "/machine/b/execute" "[5000000]") := by
  have hAccepted : Settings.read (fun _ => none) = .ok {} := rfl
  exact ⟨hAccepted, (capped hAccepted comingsAndGoings).2.2 _⟩

end Service

end Ls8
