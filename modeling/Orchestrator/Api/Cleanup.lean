import Orchestrator.Api.Executions

/-!
# Requests about cleanup

`request_cleanup` (`orchestrator-api/src/workers.rs`) asks for the teardown of a retained execution,
and `CleanupAuthorityStore::advance` and `checkpoint` (`cleanup.rs`) take an authority to a phase
given by its text. All three read the authority first and transition it by a second call, so the phase
they read may be stale by then.
-/

namespace Orchestrator

open Prog

/-! ## Phases as text -/

/-- `CleanupDisposition::from_str`, with the spellings of older rows. -/
def CleanupDisposition.parse : String → Except StoreError CleanupDisposition
  | "ACTIVE:RESERVED" | "RESERVED" => .ok (.active .reserved)
  | "ACTIVE:STORAGE" | "STORAGE_ALLOCATED" => .ok (.active .storage)
  | "ACTIVE:WORKTREE" | "WORKTREE_CREATED" => .ok (.active .worktree)
  | "ACTIVE:RUNTIME" | "RUNTIME_CREATED" => .ok (.active .runtime)
  | "ACTIVE:PI_STARTED" | "PI_STARTED" => .ok (.active .piStarted)
  | "ACTIVE:RUNNING" | "RUNNING" => .ok (.active .running)
  | "ACTIVE:POST_PI_BEFORE_EVENT" => .ok (.active .postPiBeforeEvent)
  | "RETAIN_REQUESTED" | "REVIEW_READY" => .ok .retainRequested
  | "RETAINED" => .ok .retained
  | "CLEANUP_PENDING" => .ok .cleanupPending
  | "RUNTIME_STOPPED" => .ok .runtimeStopped
  | "RUNTIME_DESTROYED" => .ok .runtimeDestroyed
  | "GIT_RECOVERED_CLEANED" => .ok .gitRecoveredCleaned
  | "STORAGE_RELEASED" => .ok .storageReleased
  | "RESERVATION_RELEASED" => .ok .reservationReleased
  | "RESOLVED" => .ok .resolved
  | other => .error (.conflict s!"unknown cleanup disposition {other}")

theorem CleanupDisposition.parse_text (d : CleanupDisposition) : parse d.text = .ok d := by
  cases d with
  | active stage => cases stage <;> rfl
  | _ => rfl

abbrev StoreProgram := ExceptT StoreError (Prog StoreCall)

def checkpoint (id : ExecutionId) (phase : String) (handles : CleanupHandles) :
    StoreProgram Unit := do
  let authority ← attempt (.getAuthority id)
  let next ← ExceptT.mk (.pure (CleanupDisposition.parse phase))
  attempt (.transitionCleanup id authority.phase next handles)

def advance (id : ExecutionId) (phase : String) : StoreProgram Unit := do
  let authority ← attempt (.getAuthority id)
  let next ← ExceptT.mk (.pure (CleanupDisposition.parse phase))
  attempt (.transitionCleanup id authority.phase next authority.handles)

/-! ## The endpoint -/

/-- Who a bearer token speaks for. -/
inductive Caller where
  | api
  /-- A worker; `none` for the token all workers share. -/
  | worker (identity : Option WorkerId)
deriving DecidableEq, Repr

def requireIdentity (caller : Caller) (id : WorkerId) : Handler Unit :=
  match caller with
  | .worker (some own) => refuse (own ≠ id)
      ⟨.forbidden, "WORKER_IDENTITY_MISMATCH", "the worker token was not issued to this worker"⟩
  | _ => pure ()

/-- One call of the store, with its error as the endpoint reports it. -/
def storeCall {α : Type} (c : StoreCall (Except StoreError α)) : Handler α :=
  attemptAs ApiError.store (.store c)

/-- The work is over and its cleanup was asked for or has begun. -/
def CleanupDisposition.requested : CleanupDisposition → Bool
  | active _ | retainRequested | retained => false
  | _ => true

/-- The transition of a retained execution; somebody else may have made it first. -/
def leaveRetained (id : ExecutionId) (handles : CleanupHandles) : Handler Unit := do
  let moved ← observe (attempt (ApiCall.store
    (.transitionCleanup id .retained .cleanupPending handles)))
  match moved with
  | .ok () => pure ()
  | .error error => do
    let now ← storeCall (.getAuthority id)
    refuse (!now.phase.requested) (.store error)

def requestCleanup (caller : Caller) (id : ExecutionId) : Handler StatusCode := do
  let authority ← storeCall (.getAuthority id)
  requireIdentity caller authority.workerId
  match authority.phase with
  | .active _ | .retainRequested =>
    throw ⟨.conflict, "CLEANUP_EXECUTION_ACTIVE", "an active execution cannot be cleaned up"⟩
  | .retained => do
    leaveRetained id authority.handles
    pure .accepted
  | _ => pure .accepted

end Orchestrator
