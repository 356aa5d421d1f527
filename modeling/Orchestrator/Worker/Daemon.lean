import Orchestrator.Worker.Traits

/-!
# The daemon tick

`reconcile_daemon_tick` and `reconcile_pending_cancellation` (`lib.rs`). The daemon calls the tick again
and again while its tasks run. It first signals the tasks, then recovers executions of its worker:
those with a pending cancellation that have no task, and those whose cleanup was begun and not
finished. `tasks` are the ids of the tasks the daemon has; those that finished were taken out before.
-/

namespace Orchestrator

open Prog

/-- The phases of a cleanup that was begun and not finished. -/
def CleanupDisposition.unfinished : CleanupDisposition → Bool
  | cleanupPending | runtimeStopped | runtimeDestroyed | gitRecoveredCleaned | storageReleased
  | reservationReleased => true
  | _ => false

namespace Managed

def mine (w : WorkerId) (request : PendingCancellation) : Bool := request.workerId = some w

def signalCancellation (w : WorkerId) (tasks : List ExecutionId) (request : PendingCancellation) :
    Managed Unit :=
  provided (mine w request ∧ request.execution.id ∈ tasks)
    (ExceptT.mk (Prog.ask (.task (.cancel request.execution.id)) >>= fun _ => .pure (.ok ())))

/-- A control goes to its task; without one it is begun, so that the store finds out that it is
stale. -/
def dispatchControl (tasks : List ExecutionId) (pending : List PendingCancellation)
    (control : PendingExecutionControl) : Managed Unit :=
  if pending.any fun request => request.execution.id = control.execution.id then pure ()
  else if control.execution.id ∈ tasks then
    attempt (.task (.signalControl control.execution.id control))
  else
    store (.beginControl control.request.requestId control.acceptedWorkerId
      control.acceptedAttemptId)

/-- The authority of a pending cancellation, opened when there is none. -/
def authorityFor (w : WorkerId) (request : PendingCancellation) : Managed CleanupAuthority := do
  let id := request.execution.id
  let found ← observe (attempt (.store (.getAuthority id)) : ExceptT StoreError (Prog TraitCall) _)
  match found with
  | .ok authority => pure authority
  | .error (.notFound _) => do
    let attemptId ← demand request.attemptId
      (.invalid s!"pending cancellation {id} lacks attempt authority")
    store (.begin id attemptId w)
    store (.getAuthority id)
  | .error error => throw (.persistence error.text)

def reconcilePendingCancellation (rounds : Nat) (w : WorkerId) (request : PendingCancellation) :
    Managed Unit := do
  let authority ← authorityFor w request
  recoverCleanupAuthority rounds authority request.execution

/-- The error of a recovery, if it failed. -/
def describing (id : ExecutionId) (p : Managed Unit) : Managed (Option String) := do
  let r ← observe p
  match r with
  | .ok () => pure none
  | .error error => pure (some s!"execution {id}: {error}")

def reconcileRequest (rounds : Nat) (w : WorkerId) (tasks : List ExecutionId)
    (request : PendingCancellation) : Managed (Option String) :=
  if !mine w request ∨ request.execution.id ∈ tasks then pure none
  else describing request.execution.id (reconcilePendingCancellation rounds w request)

def reconcileUnfinished (rounds : Nat) (pending : List PendingCancellation)
    (authority : CleanupAuthority) : Managed (Option String) :=
  if pending.any fun request => request.execution.id = authority.executionId then pure none
  else if !authority.phase.unfinished then pure none
  else do
    let id := authority.executionId
    let found ← observe (attempt (.store (.getExecution id)) :
      ExceptT StoreError (Prog TraitCall) _)
    match found with
    | .ok execution => describing id (recoverCleanupAuthority rounds authority execution)
    | .error error => pure (some s!"execution {id} is unavailable: {error}")

def reconcileAuthorities (rounds : Nat) (w : WorkerId) (pending : List PendingCancellation) :
    Managed (List String) := do
  let found ← observe (attempt (.store (.listAuthorities w)) :
    ExceptT StoreError (Prog TraitCall) _)
  match found with
  | .ok authorities => collect authorities (reconcileUnfinished rounds pending)
  | .error error => pure [s!"list cleanup authorities: {error}"]

def reconcileDaemonTick (rounds : Nat) (w : WorkerId) (tasks : List ExecutionId) :
    Managed Unit := do
  let pending ← store .listPendingCancellations
  forEach pending (signalCancellation w tasks)
  let controls ← store (.listPendingControls w)
  forEach controls (dispatchControl tasks pending)
  let cancelled ← collect pending (reconcileRequest rounds w tasks)
  let cleaned ← reconcileAuthorities rounds w pending
  let errors := cancelled ++ cleaned
  refuse (errors ≠ []) (.cleanup (String.intercalate "; " errors))

end Managed
end Orchestrator
