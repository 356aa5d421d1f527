import Orchestrator.Persistence.Executions

/-!
# Interactive controls

Pause, resume and fork requests (`lib.rs: request_control … complete_control`). A request is
accepted against the state, session and version the execution will have once the requests before it
are done (`projected`), taken through `ACCEPTED`, `APPLYING`, `SIDE_EFFECT_APPLIED` by the worker, and
completed only if the execution row is still the one it was accepted for. A transaction that finds
the request overtaken marks it `STALE`, commits, and reports a conflict: such functions return the
report inside the committed value.
-/

namespace Orchestrator

open Txn Relational

structure ExecutionControlRequest where
  requestId : Nat
  executionId : ExecutionId
  action : ExecutionControlAction
  requestedAt : Timestamp
  completedAt : Option Timestamp := none
deriving DecidableEq, Repr

structure IdempotentExecutionControl where
  request : ExecutionControlRequest
  created : Bool
deriving DecidableEq, Repr

structure PendingExecutionControl where
  request : ExecutionControlRequest
  execution : Execution
  phase : ControlPhase
  acceptedWorkerId : WorkerId
  acceptedAttemptId : AttemptId
  sourceSessionId : SessionId
  worktreePath : String
  acceptedVersion : Nat
  acceptedState : ExecutionState
  targetSessionId : Option SessionId
  sideEffectSessionId : Option SessionId
deriving DecidableEq, Repr

def ControlRow.request (c : ControlRow) : ExecutionControlRequest :=
  { requestId := c.requestId, executionId := c.executionId, action := c.action,
    requestedAt := c.requestedAt, completedAt := c.completedAt }

/-- `ORDER BY requested_at, request_id`. -/
def ControlRow.before (a b : ControlRow) : Prop :=
  a.requestedAt < b.requestedAt ∨ (a.requestedAt = b.requestedAt ∧ a.requestId ≤ b.requestId)

instance : DecidableRel ControlRow.before := fun _ _ => inferInstanceAs (Decidable (_ ∨ _))

/-- What the execution will be once the pending requests are done. -/
structure Projection where
  state : ExecutionState
  session : SessionId
  version : Nat
deriving DecidableEq, Repr

/-- Whether a control may be taken in `state`. -/
def ExecutionControlAction.allowedIn (action : ExecutionControlAction) (state : ExecutionState) :
    Bool :=
  match action with
  | .pause => state = .running
  | .resume => state = .pausedForHuman
  | .forkConversation => state = .running || state = .pausedForHuman

/-- One round of the projection loop of `request_control`. -/
def Projection.after (p : Projection) (pending : ControlRow) : Except StoreError Projection := do
  let action := pending.action
  let state := p.state
  ensure (action.allowedIn state)
    (.conflict s!"pending {action} is invalid for projected state {state}")
  match action with
  | .pause => pure { p with state := .pausedForHuman, version := p.version + 1 }
  | .resume => pure { p with state := .running, version := p.version + 1 }
  | .forkConversation => do
    let session ← require pending.targetSessionId
      (.conflict "pending fork lacks a target session")
    pure { p with session, version := p.version + 1 }

/-- The session a completed control leaves the execution with. -/
def ControlRow.expectedSession (c : ControlRow) : Except StoreError SessionId :=
  match c.action with
  | .forkConversation => require c.targetSessionId (.conflict "fork target session is missing")
  | _ => .ok c.sourceSessionId

/-- The state a completed control leaves the execution in. -/
def ControlRow.expectedState (c : ControlRow) : ExecutionState :=
  match c.action with
  | .pause => .pausedForHuman
  | .resume => .running
  | .forkConversation => c.acceptedState

/-- The event a completed control publishes. -/
def ExecutionControlAction.eventKind (action : ExecutionControlAction) (session : SessionId) :
    ExecutionEventKind :=
  match action with
  | .pause => .executionPaused
  | .resume => .executionResumed
  | .forkConversation => .conversationForked session

namespace Store

/-! ## Requesting -/

def pendingControls (s : Store) (id : ExecutionId) : List ControlRow :=
  (s.controls.rows.filter fun c => c.executionId = id && c.completedAt.isNone).insertionSort
    ControlRow.before

def requestControl (now : Timestamp) (id : ExecutionId) (action : ExecutionControlAction)
    (idempotencyKey : String) : Transaction IdempotentExecutionControl := fun s => do
  ensure (idempotencyKey ≠ "" ∧ idempotencyKey.utf8ByteSize ≤ 255)
    (.conflict "idempotency key must be 1-255 bytes")
  let row ← require (s.executions.find? id) (.notFound id.value)
  match s.controls.rows.find? fun c => c.executionId = id && c.idempotencyKey = idempotencyKey with
  | some c => do
    ensure (c.action = action)
      (.idempotencyConflict "idempotency key was already used for another execution control")
    pure ({ request := c.request, created := false }, s)
  | none => do
    ensure (!s.cancellationPending id) (.conflict s!"execution {id} has a pending cancellation")
    let lacking := StoreError.conflict s!"execution {id} lacks durable interactive authority"
    let session ← require row.sessionId lacking
    let p ← (s.pendingControls id).foldlM Projection.after
      { state := row.state, session, version := row.version }
    let projectedState := p.state
    ensure (action.allowedIn projectedState)
      (.conflict s!"execution {id} cannot accept {action} while {projectedState}")
    let workerId ← require row.workerId lacking
    let attemptId ← require row.attemptId lacking
    let worktreePath ← require row.worktreePath lacking
    let requestId := s.controlSequence + 1
    let control : ControlRow :=
      { requestId, executionId := id, action, idempotencyKey, acceptedWorkerId := workerId,
        acceptedAttemptId := attemptId, sourceSessionId := p.session, worktreePath,
        acceptedVersion := p.version, acceptedState := projectedState,
        targetSessionId := if action = .forkConversation then
          some ⟨s!"{p.session}-fork-{requestId}"⟩ else none,
        requestedAt := now }
    pure ({ request := control.request, created := true },
      { s with controls := s.controls.put control, controlSequence := requestId })

/-- `list_pending_controls`: what is left to do for a worker, oldest first. -/
def listPendingControls (s : Store) (w : WorkerId) : List PendingExecutionControl :=
  ((s.controls.rows.filter fun c => c.phase.pending).insertionSort ControlRow.before).filterMap
    fun c => ((s.executions.find? c.executionId).filter fun row =>
        c.acceptedWorkerId = w || row.workerId = some w).map fun row =>
      { request := c.request, execution := row.toExecution, phase := c.phase,
        acceptedWorkerId := c.acceptedWorkerId, acceptedAttemptId := c.acceptedAttemptId,
        sourceSessionId := c.sourceSessionId, worktreePath := c.worktreePath,
        acceptedVersion := c.acceptedVersion, acceptedState := c.acceptedState,
        targetSessionId := c.targetSessionId, sideEffectSessionId := c.sideEffectSessionId }

/-! ## Applying -/

/-- `UPDATE execution_control_requests SET phase = 'STALE', …` for one request. -/
def staleControl (s : Store) (now : Timestamp) (c : ControlRow) (reason : String) : Store :=
  { s with
    controls := s.controls.put
      { c with phase := .stale, staleReason := some reason, completedAt := some now } }

/-- The execution row is still the one the control was accepted for. -/
def acceptedFor (c : ControlRow) (row : ExecutionRow) : Prop :=
  row.workerId = some c.acceptedWorkerId ∧ row.attemptId = some c.acceptedAttemptId ∧
    row.sessionId = some c.sourceSessionId ∧ row.worktreePath = some c.worktreePath ∧
    row.version = c.acceptedVersion ∧ row.state = c.acceptedState

instance (c : ControlRow) (row : ExecutionRow) : Decidable (acceptedFor c row) :=
  inferInstanceAs (Decidable (_ ∧ _))

def beginControl (now : Timestamp) (requestId : Nat) (workerId : WorkerId)
    (attemptId : AttemptId) : Transaction (Except StoreError Unit) := fun s => do
  let c ← require (s.controls.find? requestId) (.notFound s!"control request {requestId}")
  let row ← require (s.executions.find? c.executionId) (.db "RowNotFound")
  let phase := c.phase
  ensure phase.pending (.conflict s!"control request {requestId} is terminal: {phase}")
  if ¬ (c.acceptedWorkerId = workerId ∧ c.acceptedAttemptId = attemptId ∧ acceptedFor c row) ∨
      s.cancellationPending c.executionId then
    let reason := if s.cancellationPending c.executionId then
      "execution cancellation took precedence" else "accepted execution authority changed"
    pure (.error (.conflict "accepted interactive control authority is stale"),
      s.staleControl now c reason)
  else if phase = .accepted then
    pure (.ok (), { s with controls := s.controls.put { c with phase := .applying } })
  else
    pure (.ok (), s)

def markControlSideEffectApplied (now : Timestamp) (requestId : Nat)
    (sessionId : Option SessionId) : Transaction (Except StoreError Unit) := fun s => do
  let c ← require (s.controls.find? requestId) (.notFound s!"control request {requestId}")
  let _ ← require (s.executions.find? c.executionId) (.db "RowNotFound")
  if s.cancellationPending c.executionId then
    pure (.error (.conflict "execution cancellation took precedence"),
      if c.phase.pending then s.staleControl now c "execution cancellation took precedence" else s)
  else do
    let phase := c.phase
    let expected ← c.expectedSession
    ensure (sessionId.getD expected = expected)
      (.conflict "control side effect belongs to a different session")
    if phase = .sideEffectApplied ∧ c.sideEffectSessionId = some expected then
      pure (.ok (), s)
    else do
      ensure (phase = .applying)
        (.conflict s!"control request {requestId} cannot record a side effect from {phase}")
      pure (.ok (), { s with
        controls := s.controls.put
          { c with phase := .sideEffectApplied, sideEffectSessionId := some expected } })

/-! ## Completing -/

/-- The checks of `complete_control` on a request whose side effect is applied: what the worker
reports is what was accepted, and the execution row has not changed since. -/
def completable (c : ControlRow) (row : ExecutionRow) (execution : Execution)
    (event : ExecutionEvent) : Except StoreError Unit := do
  let action := c.action
  let expected ← c.expectedSession
  ensure (c.sideEffectSessionId = some expected)
    (.conflict "control side effect session is not the accepted target")
  ensure (execution.state = c.expectedState ∧ execution.sessionId = some expected ∧
      execution.worktreePath = some c.worktreePath ∧ event.kind = action.eventKind expected)
    (.conflict s!"completed {action} does not match its accepted state/session/worktree/event")
  ensure (row.workerId = some c.acceptedWorkerId ∧ row.attemptId = some c.acceptedAttemptId ∧
      row.sessionId = some c.sourceSessionId ∧ row.worktreePath = execution.worktreePath ∧
      row.state = c.acceptedState ∧ row.version = c.acceptedVersion)
    (.conflict "interactive control attempt authority changed")
  ensure (action = .forkConversation ∨ row.state.canTransitionTo execution.state)
    (.illegalTransition row.state execution.state)

def controlled (row : ExecutionRow) (execution : Execution) : ExecutionRow :=
  { row with
    state := execution.state, sessionId := execution.sessionId,
    updatedAt := execution.updatedAt, version := row.version + 1 }

def controlledAttempt (execution : Execution) (t : AttemptRow) : AttemptRow :=
  { t with state := execution.state, sessionId := execution.sessionId }

/-- The statements that complete a control, before the event. -/
def completed (s : Store) (c : ControlRow) (row : ExecutionRow) (execution : Execution) : Store :=
  { s with
    executions := s.executions.put (controlled row execution)
    attempts := s.attempts.update
      (fun r => some r.attemptId = execution.attemptId && r.executionId = execution.id &&
        r.finishedAt.isNone)
      (controlledAttempt execution) fun _ => rfl
    controls := s.controls.put
      { c with phase := .completed, completedAt := some execution.updatedAt } }

def completeControl (now : Timestamp) (requestId : Nat) (execution : Execution)
    (event : ExecutionEvent) : Transaction (Except StoreError (Option Nat)) := fun s => do
  ensure (event.executionId = execution.id ∧ event.state = execution.state ∧
      event.attemptId = execution.attemptId ∧ event.sequence = 0)
    (.conflict "interactive control progress and event identity do not match")
  let row ← require (s.executions.find? execution.id) (.db "RowNotFound")
  let c ← require (s.controls.find? requestId) (.notFound s!"control request {requestId}")
  ensure (c.executionId = execution.id)
    (.conflict "interactive control belongs to another execution")
  let phase := c.phase
  if phase = .completed then
    pure (.ok none, s)
  else if s.cancellationPending execution.id then
    pure (.error (.conflict "execution cancellation took precedence"),
      s.staleControl now c "execution cancellation took precedence")
  else do
    ensure (phase = .sideEffectApplied)
      (.conflict s!"control request {requestId} cannot complete from {phase}")
    completable c row execution event
    let appended := (s.completed c row execution).append event
    pure (.ok (some appended.1), appended.2)

end Store
end Orchestrator
