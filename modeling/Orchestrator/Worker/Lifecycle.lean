import Orchestrator.Worker.Calls

/-!
# The execution lifecycle of a host

`SystemExecutionLifecycle` (`system.rs`) with its runtime factory and the container runtime
(`runtime-docker`): storage, worktree, containers and agent of an execution are created, adopted
after a restart, and removed step by step from the handles in the cleanup authority. A step that
finds no handle skips its work.
-/

namespace Orchestrator

open Prog Effect

namespace Lifecycle

/-! ## Storage -/

def allocate (stateRoot : String) (execution : Execution) : Effect AllocationReceipt :=
  storage execution.labels.executionId
    (ExecutionStorage.allocate stateRoot execution.labels execution.manifest.runtime.diskGib)

def releaseStorage (receipt : AllocationReceipt) : Effect Unit :=
  storage receipt.labels.executionId (ExecutionStorage.release receipt)

def ackReleaseStorage (receipt : AllocationReceipt) : Effect Unit :=
  storage receipt.labels.executionId (ExecutionStorage.ackRelease receipt)

/-! ## Worktrees -/

def createWorktree (execution : Execution) (receipt : AllocationReceipt) : Effect Worktree := do
  let repository := execution.manifest.repository
  let base := repository.baseSha.getD repository.baseRef
  let branch ← demand repository.branch
    (.lifecycle "execution lacks an AutoSpec-provided branch")
  agent (.createIn execution.labels repository.repo base branch receipt)

/-! ## The runtime -/

def roleDebug : Role → String
  | .implementation => "Implementation"
  | .review => "Review"
  | .documentation => "Documentation"
  | .uiReview => "UiReview"
  | .integrationTest => "IntegrationTest"
  | .interactive => "Interactive"

def buildCacheCapability : String := "rust-build-cache"

def checkBuildCacheRole (role : Role) (requirement : RuntimeRequirement) : Effect Unit :=
  let described := roleDebug role
  refuse (buildCacheCapability ∈ requirement.capabilities ∧ role ≠ .implementation) (.lifecycle
    s!"capability {buildCacheCapability} is limited to implementation executions, not {described}")

def revokeCredentials (id : ExecutionId) : Effect Unit := runtime id (.change .revoke)

/-- Give the credential back and fail with `error`. -/
def revokeAndFail {α : Type} (id : ExecutionId) (error : String) : Effect α := do
  let revocation ← observe (revokeCredentials id)
  match revocation with
  | .ok () => fail error
  | .error revoke => fail s!"{error}; credential revocation failed: {revoke.detail}"

/-- `VerifiedDockerRuntimeFactory::build`. -/
def build (execution : Execution) : Effect Unit := do
  checkBuildCacheRole execution.role execution.manifest.runtime
  runtime execution.id (.change .mint)
  let valid ← runtime execution.id .credentialValid
  if valid then do
    let connected ← observe (runtime execution.id .check)
    match connected with
    | .ok () => pure ()
    | .error error => revokeAndFail execution.id error.detail
  else revokeAndFail execution.id "credential broker returned invalid execution authority"

/-- `build_for_adoption`: the broker must return the credential that is mounted already. -/
def buildForAdoption (execution : Execution) : Effect Unit := do
  build execution
  runtime execution.id (.change .mint)
  let same ← runtime execution.id .credentialValid
  refuse (!same) (.lifecycle
    "adopted runtime credential differs from broker authority; runtime recreation is required")

/-- The texts of the failures among some results. -/
def errorsOf (results : List (Except WorkerError Unit)) : List String :=
  results.filterMap fun r => match r with
    | .ok () => none
    | .error e => some e.detail

/-- `runtime-docker: destroy`: containers, volumes and networks, each tried whatever the others
did. -/
def destroy (labels : OwnershipLabels) : Effect Unit := do
  let id := labels.executionId
  runtime id .check
  runtime id .check
  let containers ← observe (runtime id (.change .removeContainers))
  let volumes ← observe (runtime id (.change .removeVolumes))
  let networks ← observe (runtime id (.change .removeNetworks))
  let errors := errorsOf [containers, volumes, networks]
  let listed := String.intercalate "; " errors
  refuse (errors ≠ []) (.lifecycle s!"cleanup failed: execution_id={id}: {listed}")

/-- `provision_inner`: the network, a container for each service, the agent's container. -/
def provisionInner (labels : OwnershipLabels) (services : List ServiceRequirement) :
    Effect EnvironmentHandle := do
  let id := labels.executionId
  runtime id .check
  runtime id (.change .createNetwork)
  forEach services fun _ => runtime id (.change .createContainer)
  runtime id (.change .createContainer)
  runtime id .check
  runtime id .describe

/-- `runtime-docker: provision`: what a failed provisioning created is destroyed again. -/
def provisionRuntime (labels : OwnershipLabels) (services : List ServiceRequirement) :
    Effect EnvironmentHandle := do
  runtime labels.executionId .check
  let provisioned ← observe (provisionInner labels services)
  match provisioned with
  | .ok environment => pure environment
  | .error error => do
    let rollback ← observe (destroy labels)
    match rollback with
    | .ok () => fail error.detail
    | .error undo => do
      let id := labels.executionId
      fail s!"provisioning failed: execution_id={id}: {error.detail}; rollback failed: {undo.detail}"

def provision (execution : Execution) : Effect EnvironmentHandle := do
  build execution
  let provisioned ← observe (provisionRuntime execution.labels execution.manifest.services)
  match provisioned with
  | .ok environment => pure environment
  | .error error => revokeAndFail execution.id error.detail

/-- `destroy_runtime`: the runtime of this process's registry, and the credential. -/
def destroyRuntime (execution : Execution) : Effect Unit := do
  runtime execution.id .check
  let destroyed ← observe (destroy execution.labels)
  let revoked ← observe (revokeCredentials execution.id)
  let described r := ((errorsOf [r]).head?).getD "ok"
  refuse (errorsOf [destroyed, revoked] ≠ []) (.lifecycle
    s!"runtime destroy: {described destroyed}; credential revoke: {described revoked}")

/-! ## Adoption -/

structure AdoptedExecution where
  receipt : AllocationReceipt
  worktree : Worktree
  environment : EnvironmentHandle
  session : SessionRef

/-- The receipt of the Ready journal, when it is the execution's own. -/
def readyReceipt (layout : ExecutionLayout) (execution : Execution) : Effect AllocationReceipt := do
  let journal ← storage execution.id (ExecutionStorage.call false .readJournal)
  match journal with
  | .allocating .. => fail "storage journal lacks a durable allocation receipt"
  | .ready receipt => do
    refuse (receipt.labels ≠ execution.labels ∨ receipt.mountPath ≠ layout.root)
      (.lifecycle "storage allocation is not the exact durable Ready authority")
    pure receipt
  | .releasing .. => fail "storage allocation is not the exact durable Ready authority"

/-- The worktree whose owner record names the execution and its branch. -/
def ownedWorktree (layout : ExecutionLayout) (execution : Execution) : Effect Worktree := do
  let owner ← agent (.readOwner execution)
  let repository := execution.manifest.repository
  let branch ← demand repository.branch (.lifecycle "execution lacks durable branch")
  refuse (owner.labels ≠ execution.labels ∨ owner.branch ≠ branch)
    (.lifecycle "Git owner record differs from persisted execution authority")
  pure { executionId := execution.id, path := layout.repository, branch := owner.branch,
         baseSha := owner.baseSha, repository := repository.repo }

def adopt (stateRoot : String) (execution : Execution) : Effect AdoptedExecution := do
  let sessionId ← demand execution.sessionId (.lifecycle "running execution lacks session id")
  let layout ← ExceptT.mk (.pure
    ((ExecutionLayout.new stateRoot execution.id).mapError fun e => .lifecycle e.text))
  refuse (execution.worktreePath ≠ some layout.repository)
    (.lifecycle "persisted worktree path differs from allocation layout")
  let receipt ← readyReceipt layout execution
  agent (.verifyAdoption execution)
  let worktree ← ownedWorktree layout execution
  let (held, foreign) ← agent (.holds execution)
  refuse foreign (.lifecycle "restart adoption found a foreign Pi lifecycle hold")
  let environment ← runtime execution.id .describe
  buildForAdoption execution
  agent (.verifyAdoption execution)
  let session : SessionRef :=
    { id := sessionId, path := layout.session, executionId := execution.id,
      worktreePath := layout.repository }
  provided held (agent (.recoverAbandoned execution receipt environment worktree))
  let (remaining, _) ← agent (.holds execution)
  refuse remaining (.lifecycle "restart adoption did not quiesce abandoned Pi authority")
  pure { receipt, worktree, environment, session }

/-! ## Cleanup from durable handles -/

/-- Stop an abandoned agent, when everything needed to reach it is known. -/
def stopAbandoned (authority : CleanupAuthority) (execution : Execution) : Effect Unit :=
  match authority.handles.receipt, authority.handles.runtime, authority.handles.worktree with
  | some receipt, some environment, some worktree => do
    refuse (receipt.labels.executionId ≠ authority.executionId ∨
        environment.executionId ≠ authority.executionId ∨
        worktree.executionId ≠ authority.executionId)
      (.lifecycle "Pi cleanup handles belong to another execution")
    agent (.recoverAbandoned execution receipt environment worktree)
  | _, _, _ => pure ()

/-- Destroy the runtime the receipt's labels select, if anything of it is left. -/
def destroySelected (authority : CleanupAuthority) (receipt : AllocationReceipt) : Effect Unit := do
  refuse (receipt.labels.executionId ≠ authority.executionId)
    (.lifecycle "runtime cleanup receipt belongs to another execution")
  let present ← runtime authority.executionId .present
  provided present (do
    -- `build_for_cleanup`
    runtime authority.executionId .check
    destroy receipt.labels)

def destroyOwnedWorktree (authority : CleanupAuthority) (worktree : Worktree) : Effect Unit := do
  refuse (worktree.executionId ≠ authority.executionId)
    (.lifecycle "worktree cleanup handle belongs to another execution")
  agent (.destroyWorktree worktree)

def releaseOwnedStorage (authority : CleanupAuthority) (receipt : AllocationReceipt) :
    Effect Unit := do
  refuse (receipt.labels.executionId ≠ authority.executionId)
    (.lifecycle "storage cleanup receipt belongs to another execution")
  releaseStorage receipt

/-- The physical work of one cleanup phase, and the phase that follows it. -/
def cleanupAuthorityStep (authority : CleanupAuthority) (execution : Execution) :
    CleanupDisposition → Effect CleanupDisposition
  | .cleanupPending => do
    refuse (authority.handles.runtimeSelector.any (· ≠ execution.labels))
      (.lifecycle "runtime cleanup selector differs from execution authority")
    stopAbandoned authority execution
    pure .runtimeStopped
  | .runtimeStopped => do
    whenSome authority.handles.receipt (destroySelected authority)
    revokeCredentials authority.executionId
    pure .runtimeDestroyed
  | .runtimeDestroyed => do
    whenSome authority.handles.worktree (destroyOwnedWorktree authority)
    agent (.recoverInterruptedCreate execution.labels)
    pure .gitRecoveredCleaned
  | .gitRecoveredCleaned => do
    whenSome authority.handles.receipt (releaseOwnedStorage authority)
    pure .storageReleased
  | other => fail s!"cleanup step cannot advance {other}"

def ackOwnedWorktree (authority : CleanupAuthority) (worktree : Worktree) : Effect Unit := do
  refuse (worktree.executionId ≠ authority.executionId)
    (.lifecycle "worktree cleanup acknowledgment belongs to another execution")
  agent (.ackDestroyWorktree worktree)

def ackOwnedStorage (authority : CleanupAuthority) (receipt : AllocationReceipt) : Effect Unit := do
  refuse (receipt.labels.executionId ≠ authority.executionId)
    (.lifecycle "storage release acknowledgment belongs to another execution")
  ackReleaseStorage receipt

def ackCleanupAuthorityStep (authority : CleanupAuthority) : CleanupDisposition → Effect Unit
  | .gitRecoveredCleaned => whenSome authority.handles.worktree (ackOwnedWorktree authority)
  | .storageReleased => whenSome authority.handles.receipt (ackOwnedStorage authority)
  | .reservationReleased => do
    whenSome authority.handles.worktree (ackOwnedWorktree authority)
    whenSome authority.handles.receipt (ackOwnedStorage authority)
  | _ => pure ()

end Lifecycle
end Orchestrator
