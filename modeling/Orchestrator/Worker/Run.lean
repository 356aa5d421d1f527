import Orchestrator.Worker.Recovery

/-!
# Running an execution

`run.rs` and `cleanup_guard.rs`: a task of the worker takes an execution from its reservation to a
delivered result and tears down what it created, recording each resource in the cleanup authority
before the next is made. The tracked execution and the cleanup guard (`&mut` in the source) are the
local state of the task and survive its errors; what only the event loop mutates is passed along.

A panic is an error reply of the call that panicked, and so is the expiry of a cleanup timeout. The
`loop` of `drive_running` is unrolled for a number of rounds that a call chooses, and then never
returns: every finite part of its behaviour is a run of the model that is cut off.
-/

namespace Orchestrator

open Prog Effect

/-! ## Local state -/

/-- `CleanupGuard`: what the task has created so far. -/
structure CleanupGuard where
  /-- The execution as the task was given it. -/
  execution : Execution
  receipt : Option AllocationReceipt := none
  worktree : Option Worktree := none
  environment : Option EnvironmentHandle := none
  session : Option SessionRef := none
  runtimeCreated : Bool := false
  agentStopped : Bool := false

structure TaskState where
  /-- The tracked execution. -/
  execution : Execution
  guard : CleanupGuard

def TaskState.new (execution : Execution) : TaskState := ⟨execution, { execution }⟩

/-- `cleanup_handles`. -/
def TaskState.handles (x : TaskState) : CleanupHandles where
  receipt := x.guard.receipt
  worktree := x.guard.worktree
  runtime := x.guard.environment
  runtimeSelector := if x.guard.runtimeCreated then some x.execution.labels else none
  session := x.guard.session

abbrev Task := ExceptT WorkerError (StateT TaskState (Prog WorkerCall))

namespace Task

variable {α : Type}

/-- An effect that does not look at the local state. -/
def perform (p : Effect α) : Task α := await fun _ => p

def runFrom (x : TaskState) (t : Task α) : Effect α :=
  ExceptT.mk (t.run.run x >>= fun r => .pure r.1)

def setExecution (f : Execution → Execution) : Task Unit :=
  update fun x => { x with execution := f x.execution }

def setGuard (f : CleanupGuard → CleanupGuard) : Task Unit :=
  update fun x => { x with guard := f x.guard }

/-! ## Steps that several functions make -/

def transitionCleanup (expected next : CleanupDisposition) : Task Unit :=
  await fun x => store (.transitionCleanup x.execution.id expected next x.handles)

/-- `execution.transition(next)?`. -/
def moveTo (next : ExecutionState) : Task Unit := do
  let now ← perform (ask .now)
  let execution ← await fun x => ExceptT.mk (.pure ((x.execution.transition now next).mapError
    fun pair => .invalid s!"illegal state transition: {pair.1} -> {pair.2}"))
  setExecution fun _ => execution

def eventOf (execution : Execution) (now : Timestamp) (kind : ExecutionEventKind) :
    ExecutionEvent :=
  { executionId := execution.id, attemptId := execution.attemptId, sequence := 0, at_ := now,
    state := execution.state, kind }

def record (kind : ExecutionEventKind) : Task Unit := await fun x => do
  let now ← ask .now
  let _ ← store (.recordProgress x.execution (eventOf x.execution now kind) false)

def persistFailure (failure : FailureClass) : Task Unit := do
  moveTo .failed
  setExecution fun e =>
    { e with result := some { executionId := e.id, state := .failed, failure := some failure } }
  record (.executionFailed failure)

def failureDebug : FailureClass → String
  | .environmentFailed => "EnvironmentFailed"
  | .harnessFailed => "HarnessFailed"
  | .modelFailed => "ModelFailed"
  | .timeout => "Timeout"
  | .inactivity => "Inactivity"
  | .resourceViolation => "ResourceViolation"
  | .workerLost => "WorkerLost"
  | .cancelled => "Cancelled"
  | .taskFailed => "TaskFailed"
  | .internal => "Internal"

/-- `fail`: record the failure and stop. -/
def failWith (failure : FailureClass) : Task α := do
  persistFailure failure
  let described := failureDebug failure
  throw (.lifecycle s!"execution failed: {described}")

def stopAgent : Task Unit := do
  let x ← look
  match x.guard.session with
  | none => pure ()
  | some session =>
    if x.guard.agentStopped then pure ()
    else do
      perform (agent (.stop x.guard.execution session))
      setGuard fun g => { g with agentStopped := true }

/-! ## Controls -/

/-- What the event loop carries from round to round. -/
structure Monitor where
  health : HealthMonitor
  throttle : SampleThrottle := {}
  session : SessionRef

/-- Receipt and runtime of the guard, which a resume needs; `what` names the control. -/
def resumeAuthority (what : String) (x : TaskState) :
    Effect (AllocationReceipt × EnvironmentHandle) := do
  let receipt ← demand x.guard.receipt (.invalid s!"{what} lacks storage authority")
  let environment ← demand x.guard.environment (.invalid s!"{what} lacks runtime authority")
  pure (receipt, environment)

def resumeAgent (what : String) (session : SessionRef) : Task Unit := await fun x => do
  let (receipt, environment) ← resumeAuthority what x
  agent (.resume x.execution receipt environment session)

def applyPause (m : Monitor) (applied : Bool) : Task (ExecutionEventKind × Monitor) := do
  await fun x => refuse (x.execution.state ≠ .running) (.invalid "pause requires RUNNING")
  await fun x => provided (!applied) (agent (.pause x.execution m.session))
  let at_ ← perform (ask .instant)
  moveTo .pausedForHuman
  pure (.executionPaused, { m with health := m.health.pause at_ })

/-- A resume is applied again after a restart, to restore the same session. -/
def applyResume (m : Monitor) : Task (ExecutionEventKind × Monitor) := do
  await fun x => refuse (x.execution.state ≠ .pausedForHuman)
    (.invalid "resume requires PAUSED_FOR_HUMAN")
  resumeAgent "resume" m.session
  let at_ ← perform (ask .instant)
  moveTo .running
  pure (.executionResumed, { m with health := m.health.resume at_ })

/-- Pause the health clock while `running` agents are handed over. -/
def pauseFor (running : Bool) (m : Monitor) : Task Monitor :=
  if running then do
    await fun x => agent (.pause x.execution m.session)
    let at_ ← perform (ask .instant)
    pure { m with health := m.health.pause at_ }
  else pure m

def resumeFor (running : Bool) (m : Monitor) (session : SessionRef) : Task Monitor :=
  if running then do
    resumeAgent "fork resume" session
    let at_ ← perform (ask .instant)
    pure { m with health := m.health.resume at_ }
  else pure m

/-- The fork itself, made now. -/
def launchFork (m : Monitor) (running : Bool) (target : SessionId) :
    Task (SessionRef × Monitor) := do
  let m ← pauseFor running m
  let forked ← await fun x => agent (.forkConversation x.execution m.session target)
  await fun x => agent (.pause x.execution forked)
  let m ← resumeFor running m forked
  pure (forked, m)

def restoreFork (m : Monitor) (running : Bool) (target : SessionId) :
    Task (SessionRef × Monitor) := do
  let x ← look
  let forked : SessionRef :=
    { id := target, path := m.session.path, executionId := x.execution.id,
      worktreePath := m.session.worktreePath }
  let m ← resumeFor running m forked
  pure (forked, m)

def forkSession (m : Monitor) (applied running : Bool) (target : SessionId) :
    Task (SessionRef × Monitor) :=
  if applied then restoreFork m running target else launchFork m running target

def applyFork (m : Monitor) (control : PendingExecutionControl) (applied : Bool) :
    Task (ExecutionEventKind × Monitor) := do
  let target ← perform (demand control.targetSessionId
    (.invalid "conversation fork lacks fenced target"))
  let running : Bool := control.acceptedState = .running
  let original := m.session
  let (forked, m) ← forkSession m applied running target
  await fun x => refuse (forked.executionId ≠ x.execution.id ∨
      forked.worktreePath ≠ original.worktreePath ∨ forked.id = original.id)
    (.invalid "conversation fork changed execution/workspace authority")
  setGuard fun g => { g with session := some forked }
  let now ← perform (ask .now)
  setExecution fun e => { e with sessionId := some forked.id, updatedAt := now }
  pure (.conversationForked forked.id, { m with session := forked })

def applyControl (m : Monitor) (control : PendingExecutionControl) :
    Task (ExecutionEventKind × Monitor) :=
  let applied : Bool := control.phase = .sideEffectApplied
  match control.request.action with
  | .pause => applyPause m applied
  | .resume => applyResume m
  | .forkConversation => applyFork m control applied

def handleControl (m : Monitor) (control : PendingExecutionControl) : Task Monitor := do
  let id := control.request.requestId
  await fun x => refuse (control.request.executionId ≠ x.execution.id)
    (.invalid "interactive control belongs to another execution")
  await fun x => do
    let attemptId ← demand x.execution.attemptId (.invalid "interactive control lacks attempt")
    let workerId ← demand x.execution.workerId (.invalid "interactive control lacks worker")
    store (.beginControl id workerId attemptId)
  let (kind, m) ← applyControl m control
  await fun x => store (.markControlSideEffectApplied id x.execution.sessionId)
  await fun x => do
    let _ ← store (.completeControl id x.execution
      (eventOf x.execution x.execution.updatedAt kind))
  pure m

/-! ## The event loop -/

/-- How a round of the event loop ends: with another one, or with the agent's work done. -/
inductive Round where
  | again (m : Monitor)
  | reviewReady (session : SessionRef)

/-- A control that won a race: it is handled and the loop goes on. -/
def takeControl (m : Monitor) (closed : String) (c : Option PendingExecutionControl) :
    Task Round := do
  let control ← perform (demand c (.invalid closed))
  let m ← handleControl m control
  pure (.again m)

def pausedRound (m : Monitor) : Task Round := do
  let wake ← perform (ask .awaitControl)
  match wake with
  | .control c => takeControl m "interactive control channel closed while paused" c
  | .cancelled => throw .cancelled
  | .done a => nomatch a

/-- Publish polled events up to the one that ends the loop. -/
def relayEvents (m : Monitor) : List ExecutionEvent → Task Round
  | [] => pure (.again m)
  | event :: rest =>
    match event.kind with
    | .reviewReady => pure (.reviewReady m.session)
    | .executionFailed failure => failWith failure
    | _ => do
      await fun x => do
        let stamped :=
          { event with state := x.execution.state, attemptId := x.execution.attemptId }
        let _ ← attemptAs (fun e => WorkerError.persistence (StoreError.text e))
          (WorkerCall.store (.recordProgress x.execution stamped false) true)
      relayEvents m rest

/-- Emit a watchdog sample, when one is due. -/
def publishSample (m : Monitor) (now : Instant) (verdict : WatchdogVerdict)
    (sample : ResourceSample) : Task Monitor :=
  if m.throttle.isDue now verdict then do
    let clock ← perform (ask .now)
    record (.watchdogSample verdict sample.currentCommand
      (some (clock - (now - m.health.lastProgressAt : Nat))) (some sample.cpuPercent)
      sample.rssBytes sample.ioBytes sample.diskBytes)
    pure { m with throttle := .markEmitted now verdict }
  else pure m

def reactTo : HealthAssessment → Task Unit
  | .healthy | .quietHealthy _ => pure ()
  | .inactiveWarning seconds => record (.agentInactive seconds)
  | .failed failure => failWith failure

/-- Judge the sample, then publish the events of this round. -/
def assessRound (m : Monitor) (events : List ExecutionEvent) (sample : ResourceSample) :
    Task Round := do
  let now ← perform (ask .instant)
  let (assessment, health) := m.health.assess now sample
  let later ← perform (ask .instant)
  let m ← publishSample { m with health } later assessment.verdict sample
  reactTo assessment
  relayEvents m events

/-- The health probe. A control that arrives first is handled, and the loop starts over. -/
def probeRound (m : Monitor) (events : List ExecutionEvent) : Task Round := do
  let x ← look
  let wake ← perform (ask (.resourceSample x.execution))
  match wake with
  | .control c => takeControl m "interactive control channel closed during health probe" c
  | .cancelled => throw .cancelled
  | .done (.error e) => throw e
  | .done (.ok sample) => assessRound m events sample

/-- `record_event`, when something was polled. -/
def noteEvents (m : Monitor) (events : List ExecutionEvent) : Task Monitor :=
  if events = [] then pure m
  else do
    let at_ ← perform (ask .instant)
    pure { m with health := m.health.recordEvent at_ }

def runningRound (m : Monitor) : Task Round := do
  let x ← look
  let wake ← perform (ask (.poll x.execution m.session))
  match wake with
  | .control c => takeControl m "interactive control channel closed while running" c
  | .cancelled => throw .cancelled
  | .done (.error e) => throw e
  | .done (.ok events) => do
    let m ← noteEvents m events
    probeRound m events

def round (m : Monitor) : Task Round := do
  let cancelled ← perform (ask .cancelled)
  perform (refuse cancelled .cancelled)
  let x ← look
  if x.execution.state = .pausedForHuman then pausedRound m else runningRound m

/-- `'events: loop`, for `n` rounds and then for ever. -/
def eventLoop : Nat → Monitor → Task SessionRef
  | 0, _ => do
    let never ← perform (ask .forever)
    nomatch never
  | n + 1, m => do
    let r ← round m
    match r with
    | .again m => eventLoop n m
    | .reviewReady session => pure session

/-! ## Delivery -/

/-- Roles whose deliverable is a change to the repository. -/
def requiresDiff : Role → Bool
  | .implementation | .documentation => true
  | _ => false

/-- Publish the result: a resumable execution is retained, any other one is torn down. -/
def publishResult : Task Unit := await fun x => do
  let now ← ask .now
  let event := eventOf x.execution now .reviewReady
  if x.execution.manifest.persistence = .resumable then do
    let _ ← store (.recordProgress x.execution event true)
  else do
    let _ ← store (.recordProgress x.execution event false)
    store (.fenceForCleanup x.execution.id x.handles)

def deliver (worktree : Worktree) (artifact : String) : Task ExecutionResult := do
  moveTo .reviewReady
  let x ← look
  let result : ExecutionResult :=
    { executionId := x.execution.id, state := x.execution.state, branch := some worktree.branch,
      baseSha := some worktree.baseSha, diffArtifact := some artifact }
  setExecution fun e => { e with result := some result }
  transitionCleanup (.active .running) (.active .postPiBeforeEvent)
  publishResult
  pure result

/-- Stop the agent and judge its work. -/
def finish (worktree : Worktree) (session : SessionRef) : Task ExecutionResult := do
  setGuard fun g => { g with session := some session }
  stopAgent
  let capture ← perform (agent (.capture worktree))
  let artifact ← await fun x => agent (.persistEvidence x.execution capture)
  let x ← look
  if requiresDiff x.execution.manifest.role ∧ capture.changedFiles = [] then failWith .taskFailed
  else deliver worktree artifact

/-- An adopted human pause begins paused at the monitor's epoch. -/
def initialHealth (startedAt : Instant) (execution : Execution) : HealthMonitor :=
  if execution.state = .pausedForHuman then (HealthMonitor.defaultAt startedAt).pause startedAt
  else HealthMonitor.defaultAt startedAt

def driveRunning (worktree : Worktree) (session : SessionRef) : Task ExecutionResult := do
  let startedAt ← perform (ask .instant)
  let x ← look
  let rounds ← perform (ask .rounds)
  let session ← eventLoop rounds { health := initialHealth startedAt x.execution, session }
  finish worktree session

/-! ## The task -/

def runInner (stateRoot : String) : Task ExecutionResult := do
  await fun x => do
    let id := x.execution.id
    let state := x.execution.state
    refuse (state ≠ .workerAssigned) (.invalid s!"execution {id} is {state}, not WORKER_ASSIGNED")
  let cancelled ← perform (ask .cancelled)
  perform (refuse cancelled .cancelled)
  let receipt ← await fun x => Lifecycle.allocate stateRoot x.execution
  setGuard fun g => { g with receipt := some receipt }
  transitionCleanup (.active .reserved) (.active .storage)
  let worktree ← await fun x => Lifecycle.createWorktree x.execution receipt
  setExecution fun e => { e with worktreePath := some worktree.path }
  setGuard fun g => { g with worktree := some worktree }
  transitionCleanup (.active .storage) (.active .worktree)
  moveTo .provisioning
  -- the selector of the runtime is durable before anything of the runtime exists
  setGuard fun g => { g with runtimeCreated := true }
  transitionCleanup (.active .worktree) (.active .runtime)
  let environment ← await fun x => Lifecycle.provision x.execution
  setGuard fun g => { g with environment := some environment }
  record .environmentReady
  let packet ← await fun x => demand x.execution.manifest.taskPacket
    (.invalid "execution manifest lacks compact TaskPacket")
  let session ← await fun x => agent (.start x.execution receipt environment worktree packet)
  setExecution fun e => { e with sessionId := some session.id }
  setGuard fun g => { g with session := some session }
  transitionCleanup (.active .runtime) (.active .piStarted)
  moveTo .running
  transitionCleanup (.active .piStarted) (.active .running)
  driveRunning worktree session

/-- A provisioning execution becomes a running one; any other state is refused. -/
def enterAdopted : Task Unit := do
  let x ← look
  let id := x.execution.id
  let state := x.execution.state
  if state = .provisioning then moveTo .running
  else perform (refuse (state ≠ .running ∧ state ≠ .pausedForHuman)
    (.invalid s!"execution {id} is {state}, not RUNNING"))

/-- Resume the agent, unless a control is about to decide about it. -/
def resumeAdopted (adopted : Lifecycle.AdoptedExecution) : Task Unit := await fun x => do
  let workerId ← demand x.execution.workerId
    (.invalid "adopted execution lacks worker authority")
  let controls ← store (.listPendingControls workerId)
  let pending := controls.any fun c => c.request.executionId = x.execution.id
  provided (x.execution.state = .running ∧ !pending)
    (agent (.resume x.execution adopted.receipt adopted.environment adopted.session))

def adoptInner (stateRoot : String) : Task ExecutionResult := do
  enterAdopted
  let adopted ← await fun x => Lifecycle.adopt stateRoot x.execution
  setGuard fun g =>
    { g with
      receipt := some adopted.receipt, worktree := some adopted.worktree,
      environment := some adopted.environment, runtimeCreated := true,
      session := some adopted.session }
  resumeAdopted adopted
  transitionCleanup (.active .running) (.active .running)
  driveRunning adopted.worktree adopted.session

/-! ## Teardown -/

/-- Fence the authority, unless it is pending already. -/
def fence : Task Unit := await fun x => do
  let authority ← store (.getAuthority x.execution.id)
  provided (authority.phase ≠ .cleanupPending)
    (store (.fenceForCleanup x.execution.id x.handles))

def destroyRuntime : Task Unit := do
  await fun x => provided x.guard.runtimeCreated (Lifecycle.destroyRuntime x.guard.execution)
  setGuard fun g => { g with runtimeCreated := false }

def destroyWorktree : Task Unit := await fun x => do
  whenSome x.guard.worktree fun worktree => agent (.destroyWorktree worktree)
  agent (.recoverInterruptedCreate x.guard.execution.labels)

def releaseStorage : Task Unit :=
  await fun x => whenSome x.guard.receipt Lifecycle.releaseStorage

def cleanupPhases : Task Unit := do
  fence
  stopAgent
  transitionCleanup .cleanupPending .runtimeStopped
  destroyRuntime
  transitionCleanup .runtimeStopped .runtimeDestroyed
  destroyWorktree
  transitionCleanup .runtimeDestroyed .gitRecoveredCleaned
  releaseStorage
  transitionCleanup .gitRecoveredCleaned .storageReleased

/-! ## The end of a task -/

def logging (errors : List String) (p : Effect Unit) : Effect (List String) := do
  let r ← observe p
  match r with
  | .ok () => pure errors
  | .error e => pure (errors ++ [e.reported])

def acknowledge (id : ExecutionId) : Effect Unit := do
  let authority ← store (.getAuthority id)
  Lifecycle.ackCleanupAuthorityStep authority .reservationReleased

def finalizeAndResolve (id : ExecutionId) (attemptId : AttemptId) (errors : List String) :
    Effect (List String) := do
  let finalized ← observe (store (.finalizeCleanup id attemptId))
  match finalized with
  | .error e => pure (errors ++ [e.reported])
  | .ok _ => do
    let errors ← logging errors (acknowledge id)
    if errors = [] then logging errors (store (.resolve id)) else pure errors

/-- `cleanup_phases` and what follows it; returns the errors of the teardown. -/
def tearDown (attemptId : AttemptId) (errors : List String) : Task (List String) := do
  let cleaned ← catchS cleanupPhases
  match cleaned with
  | .error e => pure (errors ++ [e.text])
  | .ok () => await fun x => finalizeAndResolve x.execution.id attemptId errors

def completeCancellation (cancellation : Bool) (attemptId : AttemptId) (errors : List String) :
    Task (List String) := await fun x =>
  if errors = [] ∧ cancellation then
    logging errors (do
      let _ ← store (.completeCancellation x.execution.id attemptId))
  else pure errors

/-- The outcome of the task, with the errors of its teardown. -/
def report (outcome : Except WorkerError ExecutionResult) (errors : List String) :
    Except WorkerError ExecutionResult :=
  if errors = [] then outcome
  else
    let cleanup := String.intercalate "; " errors
    match outcome with
    | .ok _ => .error (.cleanup cleanup)
    | .error e => .error (.executionAndCleanup e.text cleanup)

def retainForResume (execution : Execution) (outcome : Except WorkerError ExecutionResult) : Bool :=
  outcome.isOk && execution.manifest.persistence = .resumable && !execution.state.isTerminal

def conclude (attemptId : AttemptId) (outcome : Except WorkerError ExecutionResult)
    (cancellation : Bool) (errors : List String) : Task ExecutionResult := do
  let x ← look
  if retainForResume x.execution outcome then do
    perform (store (.commitRetainedAndReleaseCapacity x.execution.id attemptId))
    perform (ExceptT.mk (.pure outcome))
  else do
    let errors ← tearDown attemptId errors
    let errors ← completeCancellation cancellation attemptId errors
    perform (ExceptT.mk (.pure (report outcome errors)))

/-- The durable cancellation request, and the error of looking it up. -/
def lookUpCancellation (id : ExecutionId) : Effect (Bool × List String) := do
  let found ← observe (store (.cancellationRequested id))
  match found with
  | .ok pending => pure (pending, [])
  | .error e => pure (false, [s!"read durable cancellation request: {e.detail}"])

/-- Record the failure of a task that neither ended nor was cancelled. -/
def recordFailure (outcome : Except WorkerError ExecutionResult) (cancellation : Bool)
    (errors : List String) (failure : CleanupGuard → FailureClass) : Task (List String) := do
  let x ← look
  if !outcome.isOk ∧ !x.execution.state.isTerminal ∧ !cancellation then do
    let recorded ← catchS (persistFailure (failure x.guard))
    match recorded with
    | .ok () => pure errors
    | .error e => pure (errors ++ [e.text])
  else pure errors

def wasCancelled (outcome : Except WorkerError ExecutionResult) : Bool :=
  match outcome with
  | .error .cancelled => true
  | _ => false

/-- What the failure of a fresh task is blamed on. -/
def freshFailure (g : CleanupGuard) : FailureClass :=
  if g.environment.isNone then .environmentFailed
  else if g.session.isSome then .harnessFailed
  else .internal

/-- `run_with_cancel_and_controls`, once its authority stands. -/
def runBegun (stateRoot : String) (attemptId : AttemptId) : Task ExecutionResult := do
  let outcome ← catchS (runInner stateRoot)
  let (pending, errors) ← await fun x => lookUpCancellation x.execution.id
  let cancellation := wasCancelled outcome || pending
  let errors ← recordFailure outcome cancellation errors freshFailure
  conclude attemptId outcome cancellation errors

def recoverDurably (execution : Execution) : Effect Unit := do
  let authority ← store (.getAuthority execution.id)
  Worker.recoverCleanupAuthority authority execution

/-- Clean up from the durable handles after an adoption that got no receipt. -/
def recoverAdoption (outcome : Except WorkerError ExecutionResult) (errors : List String) :
    Task ExecutionResult := await fun x => do
  let recovered ← observe (recoverDurably x.execution)
  match recovered with
  | .ok () => ExceptT.mk (.pure (report outcome errors))
  | .error e =>
    let unresolved := s!"durable adoption cleanup remains unresolved: {e}"
    ExceptT.mk (.pure (report outcome (errors ++ [unresolved])))

def adoptBegun (stateRoot : String) (attemptId : AttemptId) : Task ExecutionResult := do
  let outcome ← catchS (adoptInner stateRoot)
  let (pending, errors) ← await fun x => lookUpCancellation x.execution.id
  let cancellation := wasCancelled outcome || pending
  let errors ← recordFailure outcome cancellation errors fun _ => .workerLost
  let x ← look
  if !outcome.isOk ∧ x.guard.receipt = none then recoverAdoption outcome errors
  else conclude attemptId outcome cancellation errors

end Task

namespace Worker

/-- Give a reservation back whose authority was refused. -/
def releaseConflicting (execution : Execution) (authority : WorkerError) :
    Effect ExecutionResult := do
  let released ← observe (store (.release execution.id))
  match released with
  | .ok () => throw authority
  | .error release => do
    let detail := release.detail
    throw (.executionAndCleanup authority.text s!"release conflicting reservation: {detail}")

def attemptOf (execution : Execution) : Effect AttemptId :=
  demand execution.attemptId (.invalid "execution lacks attempt authority")

def workerOf (execution : Execution) : Effect WorkerId :=
  demand execution.workerId (.invalid "execution lacks worker authority")

def runWithCancelAndControls (stateRoot : String) (execution : Execution) :
    Effect ExecutionResult := do
  let attemptId ← attemptOf execution
  let workerId ← workerOf execution
  let begun ← observe (store (.begin execution.id attemptId workerId))
  match begun with
  | .error authority => releaseConflicting execution authority
  | .ok () => Task.runFrom (TaskState.new execution) (Task.runBegun stateRoot attemptId)

/-- `run_adopted_with_cancel_and_controls`. -/
def runAdopted (stateRoot : String) (execution : Execution) : Effect ExecutionResult := do
  let attemptId ← attemptOf execution
  let workerId ← workerOf execution
  store (.begin execution.id attemptId workerId)
  Task.runFrom (TaskState.new execution) (Task.adoptBegun stateRoot attemptId)

end Worker
end Orchestrator
