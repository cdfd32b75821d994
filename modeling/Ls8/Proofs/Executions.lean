import Ls8.Proofs.Attempts
import Ls8.Proofs.Exchanges

/-!
# What requests execute

The steps that the requests to a service attempt, and what their answers and the counts tell of
them.

* `callAttempts`, `Service.attempts`: the rigs at which a call and a request attempt a step.
* `Http.Response.stepsShown`, `Http.Response.isFaultless`: what the body of a response says about
  executed instructions, and about a fault.
* `CallCounted`: what a call adds to the counts. `perform_counted`: by the steps that it attempts,
  which its answer shows.
* `counted_request`: the same for a request.
-/

namespace Ls8

namespace Http.Response

/-- A field of the data that a response carries. -/
def dataField? (response : Response) (name : String) : Option Json :=
  match response.body with
  | .json (.object members) =>
    match members.lookup "data" with
    | some (.object data) => data.lookup name
    | _ => none
  | _ => none

/-- The number of executed instructions that a response tells; one that tells none is about a
request that executes none. -/
def stepsShown (response : Response) : Nat :=
  match response.dataField? "steps_executed" with
  | some (.natural steps) => steps
  | _ => 0

/-- The response tells that there was no fault. -/
def isFaultless (response : Response) : Bool :=
  match response.dataField? "fault" with
  | some .null => true
  | _ => false

end Http.Response

namespace Service

/-! ## What responses show -/

/-- The number of executed instructions in an answer. -/
def Answer.stepsExecuted : Answer → Nat
  | .ran report => report.stepsExecuted
  | .executed report => report.stepsExecuted
  | _ => 0

theorem stepsShown_response (answer : Answer) :
    answer.response.stepsShown = answer.stepsExecuted := by
  cases answer <;> rfl

theorem isFaultless_ran (report : RunReport) :
    (Answer.ran report).response.isFaultless = report.fault.isNone := by
  have hField : (Answer.ran report).response.dataField? "fault" = some (faultToJson report.fault) :=
    rfl
  rw [Http.Response.isFaultless, hField]
  cases report.fault <;> rfl

theorem isFaultless_refused (problem : Problem) :
    (Answer.refused problem).response.isFaultless = false := rfl

theorem dataField?_present (request : Http.Request) (answer : Answer) (name : String) :
    (present request answer).dataField? name = answer.response.dataField? name := by
  rw [Http.Response.dataField?, present_body, Http.Response.dataField?]

theorem stepsShown_present (request : Http.Request) (answer : Answer) :
    (present request answer).stepsShown = answer.stepsExecuted := by
  rw [Http.Response.stepsShown, dataField?_present, ← stepsShown_response]
  rfl

theorem isFaultless_present (request : Http.Request) (answer : Answer) :
    (present request answer).isFaultless = answer.response.isFaultless := by
  rw [Http.Response.isFaultless, dataField?_present]
  rfl

theorem body_of_rejection (rejection : Http.Rejection) :
    ∃ content, rejection.response.body = .text content := by
  cases rejection <;> exact ⟨_, rfl⟩

/-- A request that makes no call is answered with a text. -/
theorem body_of_none {request : Http.Request} (h : callOf? request = none) (service : Service)
    (supply : Supply) : ∃ content, (service.handle supply request).2.body = .text content := by
  unfold callOf? at h
  unfold handle
  cases hCheck : Http.Cors.check policy request with
  | error what => exact body_of_rejection _
  | ok kind =>
    cases kind with
    | preflight origin => exact ⟨_, rfl⟩
    | sameOrigin | simple origin =>
      cases hCall : callOf request with
      | error rejection => exact body_of_rejection rejection
      | ok made => simp [hCheck, hCall, Except.toOption] at h

theorem dataField?_of_none {service : Service} {arrival : Arrival}
    (h : callOf? arrival.request = none) (name : String) :
    (service.reply arrival).dataField? name = none := by
  obtain ⟨content, hBody⟩ := body_of_none h service arrival.supply
  rw [Http.Response.dataField?, reply, hBody]

/-! ## Steps that are attempted -/

/-- The arithmetic mode that a run is asked for in. -/
def RunRequest.mode (request : RunRequest) : AluMode :=
  if request.corrected.getD false then .corrected else .compatible

/-- The session that a request for a run is answered with the end of. -/
def madeFor (service : Service) (supply : Supply) (request : RunRequest) :
    Except ImageError Session :=
  Session.ofImage request.image
    (service.settings.machineConfig request.corrected request.maxSteps) supply.now

/-- The rigs at which a call attempts a step. -/
def callAttempts (service : Service) (supply : Supply) (call : Call) : List Rig :=
  match call with
  | .run request =>
    match service.madeFor supply request with
    | .ok session => (session.rig service.instruments).attempts?.getD []
    | .error _ => []
  | call =>
    match call.steps?.bind service.sessions.find? with
    | none => []
    | some session => session.attempts (service.settings.allowance call) service.instruments

/-- The rigs at which a request attempts a step. -/
def attempts (service : Service) (arrival : Arrival) : List Rig :=
  match callOf? arrival.request with
  | none => []
  | some call => service.callAttempts arrival.supply call

/-- The same for some requests, one after another. -/
def allAttempts (service : Service) : List Arrival → List Rig
  | [] => []
  | arrival :: rest => service.attempts arrival ++ (service.next arrival).allAttempts rest

/-- The mode in which a call has run a program to its end. -/
def completed? (call : Call) (answer : Answer) : Option AluMode :=
  match call, answer with
  | .run request, .ran report => if report.fault.isNone then some request.mode else none
  | _, _ => none

/-! ## Calls are counted -/

/-- What a call adds to the counts, and what it answers, agree with the steps that it attempts. -/
structure CallCounted (service : Service) (call : Call) (attempts : List Rig) (usage : Usage)
    (answer : Answer) : Prop where
  gains : service.metrics.usage.Gains usage (Rig.executed attempts)
  shown : answer.stepsExecuted = attempts.countP Rig.succeeds
  programs (mode : AluMode) : usage.programs.count mode =
    service.metrics.usage.programs.count mode +
      if completed? call answer = some mode then 1 else 0

variable {service : Service} {supply : Supply}

/-- What leaves the counts of instructions alone, and answers without any. -/
def Quiet (service : Service) (outcome : Service × Answer) : Prop :=
  outcome.1.metrics.usage = service.metrics.usage ∧ outcome.2.stepsExecuted = 0

theorem Quiet.withSession {act : Session → Service × Answer}
    (h : ∀ session, Quiet service (act session)) (id : String) :
    Quiet service (service.withSession id act) :=
  withSession_cases ⟨rfl, rfl⟩ fun session _ => h session

theorem counted_of_quiet {call : Call} {after : Service} {answer : Answer}
    (h : Quiet service (after, answer)) (hNone : completed? call answer = none) :
    CallCounted service call [] after.metrics.usage answer := by
  have hUsage : after.metrics.usage = service.metrics.usage := h.1
  rw [hUsage]
  refine ⟨.refl _, h.2, fun mode => ?_⟩
  rw [hNone]
  rfl

/-- A call that lets a machine execute instructions. -/
def Call.executes : Call → Bool
  | .run _ | .execute _ _ | .step _ => true
  | _ => false

theorem callAttempts_of_quiet {call : Call} (h : call.executes = false) (service : Service)
    (supply : Supply) : service.callAttempts supply call = [] := by
  cases call with
  | run _ | execute _ _ | step _ => cases h
  | _ => rfl

/-- The other calls leave the counts alone. -/
theorem perform_quiet {call : Call} (h : call.executes = false) (service : Service)
    (supply : Supply) : Quiet service (service.perform supply call) := by
  cases call with
  | run _ | execute _ _ | step _ => cases h
  | create request =>
    simp only [perform, create]
    split <;> exact ⟨rfl, rfl⟩
  | inspect id | snapshot id | delete id =>
    refine Quiet.withSession (fun session => ?_) id
    exact ⟨rfl, rfl⟩
  | readMemory id window =>
    refine Quiet.withSession (fun session => ?_) id
    split <;> exact ⟨rfl, rfl⟩
  | restore id request =>
    simp only [perform, restore]
    split
    · exact ⟨rfl, rfl⟩
    · refine Quiet.withSession (fun session => ?_) id
      split <;> exact ⟨rfl, rfl⟩
  | list | metrics => exact ⟨rfl, rfl⟩

theorem runOnce_of_refused {request : RunRequest} {error : ImageError}
    (h : service.madeFor supply request = .error error) :
    service.runOnce supply request = (service, .refused (.badImage error)) := by
  unfold madeFor at h
  simp only [runOnce, h]

/-- What a report tells about what a run has executed. -/
structure Reports (report : RunReport) (ended : EStateM.Result Fault Rig UInt64) : Prop where
  steps : report.stepsExecuted = (Rig.left ended).machine.steps.toNat
  fault : report.fault = match ended with
    | .ok _ _ => none
    | .error fault _ => some fault

/-- The machine of a run is new, and has the limit that was asked for, or that of the settings. -/
theorem config_of_made {request : RunRequest} {session : Session}
    (h : service.madeFor supply request = .ok session) :
    session.machine.config = service.settings.machineConfig request.corrected request.maxSteps ∧
      session.machine.steps = 0 := by
  obtain ⟨image, machine, -, hLoad, rfl⟩ := Session.ofImage_ok h
  exact Session.load_ok hLoad

/-- The report is about what the run of the new session has come to. -/
theorem runOnce_of_made {request : RunRequest} {session : Session}
    (h : service.madeFor supply request = .ok session) {ended : EStateM.Result Fault Rig UInt64}
    (ends : Machine.run? (session.rig service.instruments) = some ended) :
    (service.runOnce supply request).1.metrics.usage = (Rig.left ended).usage ∧
      ∃ report, (service.runOnce supply request).2 = .ran report ∧ Reports report ended := by
  have hLimit : session.machine.config.maxSteps =
      some (service.settings.runLimit request.maxSteps) :=
    congrArg Config.maxSteps (config_of_made h).1
  have hOutcome := Session.run?_eq_runWithin hLimit service.instruments
  rw [Session.run?_eq, ends, Option.map_some, Option.some_inj] at hOutcome
  unfold madeFor at h
  simp only [runOnce, h, ← hOutcome]
  cases ended with
  | ok count rig => exact ⟨rfl, _, rfl, rfl, rfl⟩
  | error fault rig => exact ⟨rfl, _, rfl, rfl, rfl⟩

/-- So its run comes to an end. -/
theorem run?_of_made {request : RunRequest} {session : Session}
    (h : service.madeFor supply request = .ok session) :
    ∃ ended, Machine.run? (session.rig service.instruments) = some ended := by
  have hLimit : (session.rig service.instruments).machine.config.maxSteps = some _ :=
    congrArg Config.maxSteps (config_of_made h).1
  obtain ⟨ended, hEnds⟩ := Rig.exists_runEnds hLimit
  exact ⟨ended, Rig.run?_of_runEnds hEnds⟩

/-- The program of a run is counted under its mode, exactly if no fault is reported. -/
theorem programs_of_ran {rig : Rig} {ended : EStateM.Result Fault Rig UInt64} {opcodes : List Opcode}
    {request : RunRequest} {report : RunReport} (hCounted : Rig.RunCounted rig ended opcodes)
    (hMode : rig.machine.config.aluMode = request.mode) (hReport : Reports report ended)
    (mode : AluMode) : (Rig.left ended).usage.programs.count mode =
      rig.usage.programs.count mode +
        if completed? (.run request) (.ran report) = some mode then 1 else 0 := by
  have hFault := hReport.fault
  cases ended with
  | ok n rig' =>
    show rig'.usage.programs.count mode = _
    rw [hCounted.completed rfl, Counts.count_increment, hMode, completed?, hFault]
    simp [eq_comm]
  | error fault rig' =>
    show rig'.usage.programs.count mode = _
    rw [hCounted.failed rfl, completed?, hFault]
    rfl

theorem run_counted (service : Service) (supply : Supply) (request : RunRequest) :
    CallCounted service (.run request) (service.callAttempts supply (.run request))
      (service.runOnce supply request).1.metrics.usage (service.runOnce supply request).2 := by
  cases hMade : service.madeFor supply request with
  | error error =>
    rw [runOnce_of_refused hMade]
    simp only [callAttempts, hMade]
    exact counted_of_quiet ⟨rfl, rfl⟩ rfl
  | ok session =>
    obtain ⟨hConfig, hNew⟩ := config_of_made hMade
    obtain ⟨ended, ends⟩ := run?_of_made hMade
    obtain ⟨hUsage, report, hAnswer, hReport⟩ := runOnce_of_made hMade ends
    obtain ⟨attempts, hAttempts, hCounted⟩ := Rig.counted_run ends
    have hLimit : (session.rig service.instruments).machine.config.maxSteps =
        some (service.settings.runLimit request.maxSteps) := congrArg Config.maxSteps hConfig
    have hSteps : Grown 0 (Rig.left ended).machine.steps _ := hNew ▸ hCounted.steps
    have hFits := Nat.lt_of_le_of_lt (hCounted.allowed _ hLimit) (UInt64.toNat_lt _)
    have hMode : (session.rig service.instruments).machine.config.aluMode = request.mode :=
      congrArg Config.aluMode hConfig
    simp only [callAttempts, hMade, hAttempts, hAnswer, hUsage, Option.getD_some]
    refine ⟨hCounted.gains, ?_, programs_of_ran hCounted hMode hReport⟩
    rw [Answer.stepsExecuted, hReport.steps, hSteps.toNat_of_zero hFits, Rig.length_executed]

/-- A call for steps of a session. -/
theorem execution_counted {call : Call} {id : String} (asks : call.steps? = some id) :
    CallCounted service call (service.callAttempts supply call)
      (service.perform supply call).1.metrics.usage (service.perform supply call).2 := by
  have hAttempts : service.callAttempts supply call = match service.sessions.find? id with
      | none => []
      | some session => session.attempts (service.settings.allowance call) service.instruments := by
    cases call with
    | step _ | execute _ _ =>
      cases asks
      rfl
    | _ => cases asks
  have hNone (answer : Answer) : completed? call answer = none := by
    cases call with
    | run _ => cases asks
    | _ => rfl
  rw [hAttempts, perform_of_steps asks]
  cases hFound : service.sessions.find? id with
  | none =>
    rw [execute, withSession_of_none hFound]
    exact counted_of_quiet ⟨rfl, rfl⟩ (hNone _)
  | some session =>
    rw [execute_of_some hFound]
    generalize service.settings.allowance call = count
    obtain ⟨hGains, hPrograms, -⟩ := Session.counted_execute count session service.instruments
    refine ⟨hGains, Session.execute_executed count session service.instruments, fun mode => ?_⟩
    show (session.execute count service.instruments).instruments.usage.programs.count mode = _
    have hSame : (session.execute count service.instruments).instruments.usage.programs =
        service.metrics.usage.programs := hPrograms
    rw [hSame, hNone]
    rfl

/-- **A call is counted by the steps that it attempts**, and its answer shows how many of these have
executed an instruction. -/
theorem perform_counted (service : Service) (supply : Supply) (call : Call) :
    CallCounted service call (service.callAttempts supply call)
      (service.perform supply call).1.metrics.usage (service.perform supply call).2 := by
  cases call with
  | run request => exact run_counted service supply request
  | step id => exact execution_counted rfl
  | execute id request => exact execution_counted rfl
  | _ =>
    rw [callAttempts_of_quiet rfl]
    exact counted_of_quiet (perform_quiet rfl service supply) rfl

/-! ## Requests are counted -/

/-- A request to run a program in this mode that was answered with the fault `null`. -/
def completes (mode : AluMode) (exchange : Arrival × Http.Response) : Bool :=
  match callOf? exchange.1.request with
  | some (.run request) => request.mode = mode && exchange.2.isFaultless
  | _ => false

/-- What a request adds to the counts agrees with the steps that it attempts, and with the response
to it. -/
structure Counted (service : Service) (arrival : Arrival) : Prop where
  gains : service.metrics.usage.Gains (service.next arrival).metrics.usage
    (Rig.executed (service.attempts arrival))
  shown : (service.reply arrival).stepsShown = (service.attempts arrival).countP Rig.succeeds
  programs (mode : AluMode) : (service.next arrival).metrics.usage.programs.count mode =
    service.metrics.usage.programs.count mode +
      if completes mode (arrival, service.reply arrival) then 1 else 0

theorem completes_of_call {arrival : Arrival} {call : Call} {answer : Answer} {mode : AluMode}
    (h : callOf? arrival.request = some call) (hAnswer : ∀ request, call = .run request →
      (∃ report, answer = .ran report) ∨ ∃ problem, answer = .refused problem) :
    completes mode (arrival, present arrival.request answer) =
      decide (completed? call answer = some mode) := by
  cases call with
  | run request =>
    simp only [completes, h, isFaultless_present]
    rcases hAnswer request rfl with ⟨report, rfl⟩ | ⟨problem, rfl⟩
    · rw [isFaultless_ran, completed?]
      cases report.fault <;> simp
    · simp [isFaultless_refused, completed?]
  | _ => simp [completes, h, completed?]

theorem runOnce_answer (service : Service) (supply : Supply) (request : RunRequest) :
    (∃ report, (service.runOnce supply request).2 = .ran report) ∨
      ∃ problem, (service.runOnce supply request).2 = .refused problem := by
  cases hMade : service.madeFor supply request with
  | error error => exact Or.inr ⟨_, by rw [runOnce_of_refused hMade]⟩
  | ok session =>
    obtain ⟨ended, ends⟩ := run?_of_made hMade
    obtain ⟨-, report, hAnswer, -⟩ := runOnce_of_made hMade ends
    exact Or.inl ⟨report, hAnswer⟩

/-- **A request is counted by the steps that it attempts**, and the response shows how many of these
have executed an instruction. -/
theorem counted_request (service : Service) (arrival : Arrival) : Counted service arrival := by
  cases hCall : callOf? arrival.request with
  | none =>
    have hAttempts : service.attempts arrival = [] := by simp only [attempts, hCall]
    constructor
    · rw [hAttempts, next_of_none hCall]
      exact .refl _
    · rw [hAttempts, Http.Response.stepsShown, dataField?_of_none hCall]
      rfl
    · intro mode
      rw [next_of_none hCall, completes]
      simp [hCall]
  | some call =>
    have hAttempts : service.attempts arrival = service.callAttempts arrival.supply call := by
      simp only [attempts, hCall]
    have hUsage : (service.next arrival).metrics.usage =
        (service.perform arrival.supply call).1.metrics.usage := by
      rw [next, handle_of_call hCall]
      rfl
    obtain ⟨hGains, hShown, hPrograms⟩ := perform_counted service arrival.supply call
    constructor
    · rw [hAttempts, hUsage]
      exact hGains
    · rw [hAttempts, reply_of_call hCall, stepsShown_present]
      exact hShown
    · intro mode
      have hRun : ∀ request, call = .run request →
          (∃ report, (service.perform arrival.supply call).2 = .ran report) ∨
            ∃ problem, (service.perform arrival.supply call).2 = .refused problem := by
        rintro request rfl
        exact runOnce_answer service arrival.supply request
      rw [hUsage, hPrograms, reply_of_call hCall, completes_of_call hCall hRun]
      simp

end Service

end Ls8
