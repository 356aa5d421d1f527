import Orchestrator.Worker.Lifecycle

/-!
# Recovery after a restart

`Worker::recover_cleanup_authority` finishes the cleanup of an attempt from the handles in its
authority, one durable phase at a time, and `Worker::reconcile_startup` decides for every unresolved
authority of a worker whether its execution is adopted, retained or cleaned up (`lib.rs`, lines
314-467 and 662-752).
-/

namespace Orchestrator

open Prog Effect

namespace CleanupDisposition

/-- The physical steps that are still to be made from a phase: the rounds of the `while` loop of
`recover_cleanup_authority`. -/
def stepsLeft : CleanupDisposition → Nat
  | cleanupPending => 4
  | runtimeStopped => 3
  | runtimeDestroyed => 2
  | gitRecoveredCleaned => 1
  | _ => 0

end CleanupDisposition

namespace Worker

/-- One round: acknowledge what the phase has made durable, do its work, record the next phase. -/
def advance (authority : CleanupAuthority) (execution : Execution)
    (disposition : CleanupDisposition) : Effect CleanupDisposition := do
  provided (disposition ≠ .gitRecoveredCleaned)
    (Lifecycle.ackCleanupAuthorityStep authority disposition)
  let next ← Lifecycle.cleanupAuthorityStep authority execution disposition
  store (.transitionCleanup authority.executionId disposition next authority.handles)
  pure next

def advanceAll (authority : CleanupAuthority) (execution : Execution) :
    Nat → CleanupDisposition → Effect CleanupDisposition
  | 0, disposition => pure disposition
  | n + 1, disposition => do
    let next ← advance authority execution disposition
    advanceAll authority execution n next

/-- Move an authority under which nothing was removed yet to `CLEANUP_PENDING`. -/
def fencedDisposition (authority : CleanupAuthority) : Effect CleanupDisposition :=
  if authority.phase.cleaning ∨ authority.phase = .cleanupPending then pure authority.phase
  else do
    store (.fenceForCleanup authority.executionId authority.handles)
    pure .cleanupPending

def finalizeReleased (authority : CleanupAuthority) (disposition : CleanupDisposition) :
    Effect CleanupDisposition :=
  if disposition = .storageReleased then do
    let _ ← store (.finalizeCleanup authority.executionId authority.attemptId)
    pure .reservationReleased
  else pure disposition

def resolveReleased (authority : CleanupAuthority) : Effect Unit := do
  Lifecycle.ackCleanupAuthorityStep authority .reservationReleased
  store (.resolve authority.executionId)

def completeCancellation (authority : CleanupAuthority) : Effect Unit := do
  let _ ← store (.completeCancellation authority.executionId authority.attemptId)

def tearDown (authority : CleanupAuthority) (execution : Execution) : Effect Unit := do
  let disposition ← fencedDisposition authority
  let disposition ← advanceAll authority execution disposition.stepsLeft disposition
  let disposition ← finalizeReleased authority disposition
  provided (disposition = .reservationReleased) (resolveReleased authority)

def recoverCleanupAuthority (authority : CleanupAuthority) (execution : Execution) :
    Effect Unit := do
  let cancellationPending ← store (.cancellationRequested authority.executionId)
  if authority.phase = .retained ∧ !cancellationPending then pure ()
  else do
    provided (authority.phase ≠ .resolved) (tearDown authority execution)
    provided cancellationPending (completeCancellation authority)

/-! ## Startup -/

/-- The phases and states of an execution whose agent may still be at work. -/
def adoptable (w : WorkerId) (authority : CleanupAuthority) (execution : Execution) : Bool :=
  execution.workerId = some w && execution.attemptId = some authority.attemptId &&
    execution.manifest.persistence = .resumable &&
    (execution.state = .provisioning || execution.state = .running ||
      execution.state = .pausedForHuman) &&
    (authority.phase = .active .piStarted || authority.phase = .active .running ||
      authority.phase = .active .postPiBeforeEvent)

/-- The work is done and its retention was requested or committed. -/
def retainable (w : WorkerId) (authority : CleanupAuthority) (execution : Execution) : Bool :=
  execution.workerId = some w && execution.attemptId = some authority.attemptId &&
    execution.state = .reviewReady &&
    (authority.phase = .retainRequested || authority.phase = .retained)

def isActive : CleanupDisposition → Bool
  | .active _ => true
  | _ => false

/-- The attempt was lost with the process: it still holds its reservation and is not finished. -/
def fenceable (w : WorkerId) (reservations : List Reservation) (authority : CleanupAuthority)
    (execution : Execution) : Bool :=
  execution.workerId = some w && execution.attemptId = some authority.attemptId &&
    !execution.state.isTerminal &&
    (reservations.any fun r =>
      r.execution.id = execution.id && r.attemptId = authority.attemptId && r.workerId = w) &&
    (isActive authority.phase || authority.phase = .cleanupPending)

/-- Clean up after an attempt that cannot go on; a failure is logged and left to the next start. -/
def abandon (w : WorkerId) (reservations : List Reservation) (authority : CleanupAuthority)
    (execution : Execution) : Effect Unit := do
  provided (fenceable w reservations authority execution) (do
    let _ ← store (.fenceLostAttempt execution.id authority.attemptId))
  let _ ← (observe (recoverCleanupAuthority authority execution) :
    Effect (Except WorkerError Unit))

/-- One authority without a pending cancellation; the execution is returned when it is to be
adopted. -/
def reconcileLive (w : WorkerId) (reservations : List Reservation) (authority : CleanupAuthority)
    (execution : Execution) : Effect (Option Execution) :=
  if adoptable w authority execution then pure (some execution)
  else if retainable w authority execution then do
    store (.commitRetainedAndReleaseCapacity execution.id authority.attemptId)
    pure none
  else do
    abandon w reservations authority execution
    pure none

def reconcileAuthority (w : WorkerId) (reservations : List Reservation)
    (authority : CleanupAuthority) : Effect (Option Execution) := do
  let found ← observe (store (.getExecution authority.executionId))
  match found with
  | .error _ => pure none
  | .ok execution => do
    let pending ← observe (store (.cancellationRequested execution.id))
    match pending with
    | .error _ => pure none
    | .ok true => do
      let _ ← (observe (recoverCleanupAuthority authority execution) :
        Effect (Except WorkerError Unit))
      pure none
    | .ok false => reconcileLive w reservations authority execution

/-- `reconcile_startup`: the executions whose tasks are spawned for adoption. -/
def reconcileStartup (w : WorkerId) : Effect (List Execution) := do
  let reservations ← store (.listReservations w)
  let authorities ← store (.listAuthorities w)
  collect authorities (reconcileAuthority w reservations)

end Worker
end Orchestrator
