import Orchestrator.Persistence.Schema

/-!
# Executions and cancellation

The part of `PgExecutionStore` (`lib.rs`) that creates executions, records their progress and
cancels them. Every transaction locks the execution's row first, so each is one atomic step.
-/

namespace Orchestrator

open Txn Relational

/-- The event a transaction publishes gets its sequence from the log. -/
def publish (id : ExecutionId) (attemptId : Option AttemptId) (at_ : Timestamp)
    (state : ExecutionState) (kind : ExecutionEventKind) : ExecutionEvent :=
  { executionId := id, attemptId, sequence := 0, at_, state, kind }

def cancelledResult (id : ExecutionId) : ExecutionResult :=
  { executionId := id, state := .cancelled, failure := some .cancelled }

structure IdempotentExecution where
  execution : Execution
  created : Bool
  eventSequence : Option Nat
deriving DecidableEq, Repr

structure PendingCancellation where
  execution : Execution
  workerId : Option WorkerId
  attemptId : Option AttemptId
deriving DecidableEq, Repr

namespace Store

/-- Insert a row of `executions` at version 1. -/
def insertExecution (s : Store) (execution : Execution) : Except StoreError Store :=
  match s.executions.find? execution.id with
  | some _ => .error (.duplicateExecutionId execution.id.value)
  | none => .ok { s with executions := s.executions.put { toExecution := execution, version := 1 } }

def insert (execution : Execution) : Transaction Unit := fun s => do
  let s' ← s.insertExecution execution
  pure ((), s')

/-- `ExecutionStore::get`. -/
def getExecution (s : Store) (id : ExecutionId) : Except StoreError Execution := do
  let row ← require (s.executions.find? id) (.notFound id.value)
  pure row.toExecution

theorem getExecution_eq_ok {s : Store} {id : ExecutionId} {x : Execution} :
    s.getExecution id = .ok x ↔ ∃ row, s.executions.find? id = some row ∧ row.toExecution = x := by
  simp only [getExecution, bind_eq_ok, require_eq_ok, pure_eq_ok]

/-- Overwrite state and timestamp of a row, counting the version up. -/
def moved (now : Timestamp) (row : ExecutionRow) (next : ExecutionState) : ExecutionRow :=
  { row with state := next, updatedAt := now, version := row.version + 1 }

/-! ## Creation -/

def createIdempotent (execution : Execution) (event : ExecutionEvent)
    (idempotencyKey requestScope : String) : Transaction IdempotentExecution := fun s => do
  ensure (idempotencyKey ≠ "" ∧ idempotencyKey.utf8ByteSize ≤ 255)
    (.conflict "idempotency key must be 1-255 bytes")
  ensure (execution.id = event.executionId ∧ execution.state = event.state ∧ event.sequence = 0)
    (.conflict "created execution and event identity do not match")
  match s.requests.find? idempotencyKey with
  | some request => do
    let replay ← require (s.executions.find? request.executionId) (.db "RowNotFound")
    ensure (request.requestScope = requestScope ∧ replay.manifest = execution.manifest)
      (.idempotencyConflict "idempotency key was already used for a different request")
    pure ({ execution := replay.toExecution, created := false, eventSequence := none }, s)
  | none => do
    let s₁ ← s.insertExecution execution
    let s₂ : Store :=
      { s₁ with
        requests := s₁.requests.put { idempotencyKey, requestScope, executionId := execution.id } }
    let appended := s₂.append event
    pure ({ execution, created := true, eventSequence := some appended.1 }, appended.2)

/-! ## Cancellation -/

/-- The row after a cancellation, in both cancellation paths. -/
def cancelledRow (now : Timestamp) (row : ExecutionRow) : ExecutionRow :=
  { moved now row .cancelled with result := some (cancelledResult row.id) }

/-- The attempt row after a cancellation; when it finished stands. -/
def cancelledAttempt (t : AttemptRow) : AttemptRow :=
  { t with state := .cancelled, result := some (cancelledResult t.executionId) }

/-- `UPDATE execution_cancellation_requests SET completed_at = … WHERE completed_at IS NULL`. -/
def finishCancellation (s : Store) (now : Timestamp) (id : ExecutionId) : Store :=
  { s with
    cancellations := s.cancellations.update
      (fun r => r.executionId = id && r.completedAt.isNone)
      (fun r => { r with completedAt := some now }) fun _ => rfl }

/-- `INSERT INTO execution_cancellation_requests … ON CONFLICT DO NOTHING`. -/
def noteCancellation (s : Store) (now : Timestamp) (id : ExecutionId) : Store :=
  { s with
    cancellations := match s.cancellations.find? id with
      | some _ => s.cancellations
      | none => s.cancellations.put { executionId := id, requestedAt := now } }

def requestCancellation (now : Timestamp) (id : ExecutionId) : Transaction Execution := fun s => do
  let row ← require (s.executions.find? id) (.notFound id.value)
  if row.state = .cancelled ∧ (s.cancellations.find? id).isSome then
    pure (row.toExecution, s)
  else do
    ensure (!row.state.isTerminal) (.illegalTransition row.state .cancelled)
    let s₁ := (s.noteCancellation now id).staleControls now id
      "execution cancellation took precedence"
    if row.state = .queued ∧ row.workerId = none ∧ row.attemptId = none then
      let row' := cancelledRow now row
      let s₂ : Store := { s₁ with executions := s₁.executions.put row' }
      let s₃ := (s₂.append (publish id none now .cancelled .executionCancelled)).2
      pure (row'.toExecution, s₃.finishCancellation now id)
    else
      pure (row.toExecution, s₁)

/-- `list_pending_cancellations`, ordered by request. -/
def listPendingCancellations (s : Store) : List PendingCancellation :=
  let before (a b : CancellationRow) : Prop := a.requestedAt < b.requestedAt ∨
    (a.requestedAt = b.requestedAt ∧ a.executionId.value ≤ b.executionId.value)
  let pending := (s.cancellations.rows.filter fun r => r.completedAt.isNone).insertionSort
    fun a b => before a b
  pending.filterMap fun r => (s.executions.find? r.executionId).map fun row =>
    let authority := s.authorities.find? r.executionId
    { execution := row.toExecution
      workerId := (authority.map (·.workerId)).or row.workerId
      attemptId := (authority.map (·.attemptId)).or row.attemptId }

def completeCancellation (now : Timestamp) (id : ExecutionId) (attemptId : AttemptId) :
    Transaction (Execution × Nat) := fun s => do
  let row ← require (s.executions.find? id) (.notFound id.value)
  ensure (s.cancellationPending id)
    (.conflict s!"execution {id} has no pending cancellation request")
  ensure (row.state.canTransitionTo .cancelled) (.illegalTransition row.state .cancelled)
  ensure (s.reservations.find? id = none ∧
      (s.attemptOf id attemptId).any (fun r => r.finishedAt.isSome) ∧
      (s.authorityOf id attemptId).any fun c => c.phase = .resolved)
    (.conflict
      s!"execution {id} cancellation cannot complete before cleanup and reservation release")
  let row' := cancelledRow now row
  let s₁ : Store :=
    { s with
      executions := s.executions.put row'
      attempts := s.attempts.update (fun r => r.attemptId = attemptId && r.executionId = id)
        cancelledAttempt fun _ => rfl }
  let appended := s₁.append (publish id (some attemptId) now .cancelled .executionCancelled)
  pure ((row'.toExecution, appended.1), appended.2.finishCancellation now id)

/-! ## Transitions and progress -/

def transition (now : Timestamp) (id : ExecutionId) (next : ExecutionState) :
    Transaction Execution := fun s => do
  let row ← require (s.executions.find? id) (.notFound id.value)
  ensure (!s.cancellationPending id)
    (.conflict s!"execution {id} has a pending cancellation request")
  ensure (row.state.canTransitionTo next) (.illegalTransition row.state next)
  let row' := moved now row next
  pure (row'.toExecution, { s with executions := s.executions.put row' })

def transitionWithEvent (now : Timestamp) (id : ExecutionId) (next : ExecutionState)
    (event : ExecutionEvent) : Transaction (Execution × Nat) := fun s => do
  ensure (id = event.executionId ∧ next = event.state ∧ event.sequence = 0)
    (.conflict "execution transition and event identity do not match")
  let row ← require (s.executions.find? id) (.notFound id.value)
  ensure (!s.cancellationPending id)
    (.conflict s!"execution {id} has a pending cancellation request")
  ensure (row.attemptId = event.attemptId)
    (.conflict "execution transition and event attempt do not match")
  ensure (row.state.canTransitionTo next) (.illegalTransition row.state next)
  let row' := moved now row next
  let appended := ({ s with executions := s.executions.put row' }).append event
  pure ((row'.toExecution, appended.1), appended.2)

/-- The execution row after progress: what the worker reports, over what only the store knows. -/
def progressed (row : ExecutionRow) (execution : Execution) : ExecutionRow :=
  { row with
    state := execution.state, workerId := execution.workerId, attemptId := execution.attemptId,
    sessionId := execution.sessionId, worktreePath := execution.worktreePath,
    result := execution.result, updatedAt := execution.updatedAt, version := row.version + 1 }

/-- The attempt row after progress; a terminal state finishes the attempt. -/
def attemptProgressed (attempt : AttemptRow) (execution : Execution) : AttemptRow :=
  { attempt with
    state := execution.state, worktreePath := execution.worktreePath,
    sessionId := execution.sessionId, result := execution.result,
    finishedAt := if execution.state.isTerminal then some execution.updatedAt else none }

/-- The authority row a retention request moves, if it may. -/
def retentionRow (s : Store) (id : ExecutionId) (a : AttemptId) (w : WorkerId) :
    Option CleanupAuthority :=
  (s.authorityOf id a).filter fun c => c.workerId = w &&
    (c.phase = .active .postPiBeforeEvent || c.phase = .retainRequested)

/-- The retention request that `record_progress` makes in its transaction, if asked to. -/
def retain (s : Store) (now : Timestamp) (id : ExecutionId) (a : AttemptId) (w : WorkerId) :
    Bool → Except StoreError Store
  | false => .ok s
  | true => do
    let c ← require (s.retentionRow id a w)
      (.conflict "cleanup authority cannot atomically request retention")
    pure { s with
      authorities := s.authorities.put { c with phase := .retainRequested, updatedAt := now } }

/-- A terminal state makes the pending controls stale. -/
def settleControls (s : Store) (now : Timestamp) (execution : Execution) : Store :=
  { s with
    controls := if execution.state.isTerminal then
        (s.staleControls now execution.id "execution entered a terminal state").controls
      else s.controls }

/-- `record_progress`; `requestRetention` is `record_progress_and_request_retention`. -/
def recordProgress (now : Timestamp) (execution : Execution) (event : ExecutionEvent)
    (requestRetention : Bool) : Transaction Nat := fun s => do
  let id := execution.id
  ensure (execution.id = event.executionId ∧ execution.state = event.state ∧
      execution.attemptId = event.attemptId)
    (.conflict "execution progress and event identity do not match")
  let row ← require (s.executions.find? id) (.notFound id.value)
  ensure (!s.cancellationPending id)
    (.conflict s!"execution {id} has a pending cancellation request")
  ensure (row.workerId = execution.workerId ∧ row.attemptId = execution.attemptId)
    (.conflict "execution worker or attempt authority changed")
  ensure (row.state = execution.state ∨ row.state.canTransitionTo execution.state)
    (.illegalTransition row.state execution.state)
  let lacking := StoreError.conflict "execution progress lacks active attempt authority"
  let attemptId ← require execution.attemptId lacking
  let workerId ← require execution.workerId lacking
  let inactive := StoreError.conflict "expected exactly one active attempt, found 0"
  let attempt ← require (s.attemptOf id attemptId) inactive
  ensure (attempt.workerId = workerId ∧ attempt.finishedAt = none) inactive
  let s₁ : Store :=
    { s with
      executions := s.executions.put (progressed row execution)
      attempts := s.attempts.put (attemptProgressed attempt execution) }
  let s₂ ← s₁.retain now id attemptId workerId requestRetention
  pure ((s₂.settleControls now execution).append event)

end Store
end Orchestrator
