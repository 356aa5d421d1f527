import Mathlib.Data.List.Sort
import Orchestrator.Lib.Table
import Orchestrator.Core.Worker

/-!
# The controller database

The tables of the PostgreSQL schema (`migrations/`), each a `Relational.Table` with the primary key
the migration declares, and the statements that several transactions share. JSON columns hold the
value they decode to, enumerations their type; a `text` function gives the stored spelling wherever
a message prints it. Columns that no modelled query reads (`updated_at` of most tables, the copy of
the manifest in `execution_requests`) are left out.
-/

namespace Orchestrator

open Relational

/-! ## Cleanup dispositions -/

inductive CleanupStage where
  | reserved | storage | worktree | runtime | piStarted | running | postPiBeforeEvent
deriving DecidableEq, Repr

inductive CleanupDisposition where
  | active (stage : CleanupStage)
  | retainRequested | retained | cleanupPending | runtimeStopped | runtimeDestroyed
  | gitRecoveredCleaned | storageReleased | reservationReleased | resolved
deriving DecidableEq, Repr

namespace CleanupDisposition

def canTransitionTo : CleanupDisposition → CleanupDisposition → Bool
  | active .reserved, active .storage => true
  | active .storage, active .worktree => true
  | active .worktree, active .runtime => true
  | active .runtime, active .piStarted => true
  | active .piStarted, active .running => true
  | active .running, active .postPiBeforeEvent => true
  | active .postPiBeforeEvent, retainRequested => true
  | retainRequested, retained => true
  | retained, cleanupPending => true
  | cleanupPending, runtimeStopped => true
  | runtimeStopped, runtimeDestroyed => true
  | runtimeDestroyed, gitRecoveredCleaned => true
  | gitRecoveredCleaned, storageReleased => true
  | storageReleased, reservationReleased => true
  | reservationReleased, resolved => true
  | _, _ => false

def text : CleanupDisposition → String
  | active .reserved => "ACTIVE:RESERVED"
  | active .storage => "ACTIVE:STORAGE"
  | active .worktree => "ACTIVE:WORKTREE"
  | active .runtime => "ACTIVE:RUNTIME"
  | active .piStarted => "ACTIVE:PI_STARTED"
  | active .running => "ACTIVE:RUNNING"
  | active .postPiBeforeEvent => "ACTIVE:POST_PI_BEFORE_EVENT"
  | retainRequested => "RETAIN_REQUESTED"
  | retained => "RETAINED"
  | cleanupPending => "CLEANUP_PENDING"
  | runtimeStopped => "RUNTIME_STOPPED"
  | runtimeDestroyed => "RUNTIME_DESTROYED"
  | gitRecoveredCleaned => "GIT_RECOVERED_CLEANED"
  | storageReleased => "STORAGE_RELEASED"
  | reservationReleased => "RESERVATION_RELEASED"
  | resolved => "RESOLVED"

instance : ToString CleanupDisposition := ⟨text⟩

/-- The phases from which no statement returns to `CLEANUP_PENDING`: physical cleanup has begun
(`phase NOT IN ('RUNTIME_STOPPED', …, 'RESOLVED')` in the fencing statements). -/
def cleaning : CleanupDisposition → Bool
  | runtimeStopped | runtimeDestroyed | gitRecoveredCleaned | storageReleased
  | reservationReleased | resolved => true
  | _ => false

end CleanupDisposition

/-! ## Durable handles

What a worker writes into `cleanup_authorities.handles` so that a later process finds the resources
of an attempt. -/

structure AllocationReceipt where
  labels : OwnershipLabels
  reservedBytes : Nat
  mountPath : String
deriving DecidableEq, Repr

structure Worktree where
  executionId : ExecutionId
  path : String
  branch : String
  baseSha : String
  repository : String
deriving DecidableEq, Repr

structure EnvironmentHandle where
  executionId : ExecutionId
  network : String
  agentContainer : String
  containerId : String
  daemonId : String
  labels : OwnershipLabels
  serviceContainers : List String := []
  volumes : List String := []
  credentialsPath : Option String := none
deriving DecidableEq, Repr

structure SessionRef where
  id : SessionId
  path : String
  executionId : ExecutionId
  worktreePath : String
deriving DecidableEq, Repr

/-- The `handles` column; the default `{}` is all `none`. -/
structure CleanupHandles where
  receipt : Option AllocationReceipt := none
  worktree : Option Worktree := none
  runtime : Option EnvironmentHandle := none
  runtimeSelector : Option OwnershipLabels := none
  session : Option SessionRef := none
deriving DecidableEq, Repr

/-! ## Rows -/

structure ExecutionRow extends Execution where
  version : Nat := 1
deriving DecidableEq, Repr

structure EventRow where
  executionId : ExecutionId
  sequence : Nat
  payload : ExecutionEvent
deriving DecidableEq, Repr

structure ReservationRow where
  executionId : ExecutionId
  workerId : WorkerId
  attemptId : AttemptId
  cpu : Nat
  memoryMib : Nat
  diskGib : Nat
  createdAt : Timestamp
deriving DecidableEq, Repr

structure AttemptRow where
  attemptId : AttemptId
  executionId : ExecutionId
  workerId : WorkerId
  state : ExecutionState
  worktreePath : Option String := none
  sessionId : Option SessionId := none
  result : Option ExecutionResult := none
  finishedAt : Option Timestamp := none
deriving DecidableEq, Repr

structure CleanupAuthority where
  executionId : ExecutionId
  attemptId : AttemptId
  workerId : WorkerId
  phase : CleanupDisposition
  handles : CleanupHandles := {}
  updatedAt : Timestamp
deriving DecidableEq, Repr

structure CancellationRow where
  executionId : ExecutionId
  requestedAt : Timestamp
  completedAt : Option Timestamp := none
deriving DecidableEq, Repr

inductive ControlPhase where
  | accepted | applying | sideEffectApplied | completed | stale
deriving DecidableEq, Repr

def ControlPhase.text : ControlPhase → String
  | accepted => "ACCEPTED"
  | applying => "APPLYING"
  | sideEffectApplied => "SIDE_EFFECT_APPLIED"
  | completed => "COMPLETED"
  | stale => "STALE"

instance : ToString ControlPhase := ⟨ControlPhase.text⟩

/-- `phase IN ('ACCEPTED', 'APPLYING', 'SIDE_EFFECT_APPLIED')`. -/
def ControlPhase.pending : ControlPhase → Bool
  | accepted | applying | sideEffectApplied => true
  | completed | stale => false

structure ControlRow where
  requestId : Nat
  executionId : ExecutionId
  action : ExecutionControlAction
  idempotencyKey : String
  acceptedWorkerId : WorkerId
  acceptedAttemptId : AttemptId
  sourceSessionId : SessionId
  worktreePath : String
  acceptedVersion : Nat
  acceptedState : ExecutionState
  targetSessionId : Option SessionId := none
  sideEffectSessionId : Option SessionId := none
  phase : ControlPhase := .accepted
  staleReason : Option String := none
  requestedAt : Timestamp
  completedAt : Option Timestamp := none
deriving DecidableEq, Repr

structure RequestRow where
  idempotencyKey : String
  requestScope : String
  executionId : ExecutionId
deriving DecidableEq, Repr

/-- The controller database. -/
structure Store where
  executions : Table ExecutionRow fun r => r.id
  events : Table EventRow fun r => (r.executionId, r.sequence)
  workers : Table WorkerRegistration fun r => r.id
  reservations : Table ReservationRow fun r => r.executionId
  attempts : Table AttemptRow fun r => r.attemptId
  authorities : Table CleanupAuthority fun r => r.executionId
  cancellations : Table CancellationRow fun r => r.executionId
  controls : Table ControlRow fun r => r.requestId
  requests : Table RequestRow fun r => r.idempotencyKey
  /-- Last value handed out by the sequence of `execution_control_requests.request_id`. -/
  controlSequence : Nat

inductive StoreError where
  /-- A violated constraint or a missing row that `fetch_one` required. -/
  | db (detail : String)
  | notFound (what : String)
  | illegalTransition (source target : ExecutionState)
  | conflict (message : String)
  | idempotencyConflict (message : String)
  | duplicateExecutionId (id : String)
deriving DecidableEq, Repr

/-- A transaction: an error rolls back, a result is committed with the next database. -/
abbrev Transaction (α : Type) := Store → Except StoreError (α × Store)

namespace Store

def initial : Store where
  executions := .empty
  events := .empty
  workers := .empty
  reservations := .empty
  attempts := .empty
  authorities := .empty
  cancellations := .empty
  controls := .empty
  requests := .empty
  controlSequence := 0

/-! ## Shared statements -/

/-- `cancellation_pending`: a request exists and is not completed. -/
def cancellationPending (s : Store) (id : ExecutionId) : Bool :=
  (s.cancellations.find? id).any fun r => r.completedAt.isNone

def eventsOf (s : Store) (id : ExecutionId) : List EventRow :=
  s.events.rows.filter fun r => r.executionId = id

/-- `append_in_transaction`: `MAX(sequence) + 1` under the execution's advisory lock. -/
def append (s : Store) (event : ExecutionEvent) : Nat × Store :=
  let sequence := ((s.eventsOf event.executionId).map fun r => r.sequence).foldl max 0 + 1
  let row : EventRow := ⟨event.executionId, sequence, { event with sequence }⟩
  (sequence, { s with events := s.events.put row })

def staleControls (s : Store) (now : Timestamp) (id : ExecutionId) (reason : String) : Store :=
  { s with
    controls := s.controls.update (fun c => c.executionId = id && c.phase.pending)
      (fun c => { c with phase := .stale, staleReason := some reason, completedAt := some now })
      fun _ => rfl }

/-- `UPDATE workers SET running_executions = GREATEST(running_executions - 1, 0) WHERE id = w`. -/
def freeSlot (s : Store) (w : WorkerId) : Store :=
  { s with
    workers := s.workers.update (fun r => r.id = w)
      (fun r => { r with runningExecutions := r.runningExecutions - 1 }) fun _ => rfl }

/-- `DELETE FROM reservations WHERE execution_id = $1 [AND attempt_id = $2] RETURNING …` followed by
the decrement for `charged`, when a row was deleted. -/
def dropReservation (s : Store) (id : ExecutionId) (charged : WorkerId) : Store :=
  ({ s with reservations := s.reservations.erase id }).freeSlot charged

/-- The reservation of `id`, when it is for attempt `a`. -/
def reservationOf (s : Store) (id : ExecutionId) (a : AttemptId) : Option ReservationRow :=
  (s.reservations.find? id).filter fun r => r.attemptId = a

/-- The cleanup authority of `id`, when it is for attempt `a`. -/
def authorityOf (s : Store) (id : ExecutionId) (a : AttemptId) : Option CleanupAuthority :=
  (s.authorities.find? id).filter fun r => r.attemptId = a

/-- The attempt row `a`, when it belongs to execution `id`. -/
def attemptOf (s : Store) (id : ExecutionId) (a : AttemptId) : Option AttemptRow :=
  (s.attempts.find? a).filter fun r => r.executionId = id

end Store
end Orchestrator
