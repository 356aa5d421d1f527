import Orchestrator.Worker.Run

/-!
# Cleanup over the worker's traits

A worker is generic in its stores and in `ExecutionLifecycle`. Seen from there, a step of a cleanup is
one call that returns or fails: a method of the lifecycle, or one of the cleanup guard, which has
nothing to do when its handle is missing or the step was made before. These are the two programs that
drive a cleanup, `cleanup_phases` with what follows it (`run.rs`) and `recover_cleanup_authority`
(`lib.rs`), over such calls. `Worker.Proof.Traits` shows that they are the programs of `Worker.Run`
and `Worker.Recovery` when the lifecycle is that of the host.

The `while` loop of the recovery is cut after a number of `rounds`.
-/

namespace Orchestrator

open Prog

/-- The cleanup methods of `CleanupGuard`. -/
inductive GuardStep where
  | stopRuntimeProcess | destroyRuntime | destroyWorktree | releaseStorage
deriving DecidableEq, Repr

namespace GuardStep

def phase : GuardStep → CleanupDisposition
  | stopRuntimeProcess => .cleanupPending
  | destroyRuntime => .runtimeStopped
  | destroyWorktree => .runtimeDestroyed
  | releaseStorage => .gitRecoveredCleaned

def note : GuardStep → CleanupGuard → CleanupGuard
  | stopRuntimeProcess, g => { g with agentStopped := g.agentStopped || g.session.isSome }
  | destroyRuntime, g => { g with runtimeCreated := false }
  | destroyWorktree, g | releaseStorage, g => g

end GuardStep

inductive LifecycleCall : Type → Type
  | guard (step : GuardStep) (x : TaskState) : LifecycleCall (Except WorkerError Unit)
  /-- `cleanup_authority_step`. -/
  | step (authority : CleanupAuthority) (execution : Execution) (disposition : CleanupDisposition) :
      LifecycleCall (Except WorkerError CleanupDisposition)
  /-- `ack_cleanup_authority_step`. -/
  | ack (authority : CleanupAuthority) (disposition : CleanupDisposition) :
      LifecycleCall (Except WorkerError Unit)

/-- What the worker asks of the task with an id. -/
inductive TaskCall : Type → Type
  | cancel (id : ExecutionId) : TaskCall Unit
  | signalControl (id : ExecutionId) (control : PendingExecutionControl) :
      TaskCall (Except WorkerError Unit)

/-- A call of one of the traits of the worker, or of one of its own tasks. -/
inductive TraitCall (β : Type) : Type
  | store (c : StoreCall β)
  | lifecycle (c : LifecycleCall β)
  | task (c : TaskCall β)

/-- A step that succeeds returns the phase that follows. -/
def LifecycleCall.Answers : {β : Type} → LifecycleCall β → β → Prop
  | _, .step _ _ disposition, b => ∀ next, b = .ok next → disposition.canTransitionTo next = true
  | _, .guard _ _, _ | _, .ack _ _, _ => True

/-- What a call may answer, and which database it leaves. -/
def TraitCall.Does {β : Type} : TraitCall β → Store → β → Store → Prop
  | .store c, s, b, s' => ∃ now, (b = (c.exec now s).1 ∧ s' = (c.exec now s).2) ∨
      ∃ e, b = c.failed e ∧ (s' = s ∨ s' = (c.exec now s).2)
  | .lifecycle c, s, b, s' => c.Answers b ∧ s' = s
  | .task _, s, _, s' => s' = s

/-- A program over the traits that may fail. -/
abbrev Managed := ExceptT WorkerError (Prog TraitCall)

abbrev ManagedTask := ExceptT WorkerError (StateT TaskState (Prog TraitCall))

namespace Managed

variable {α : Type}

def store (c : StoreCall (Except StoreError α)) : Managed α :=
  attemptAs (fun e => .persistence e.text) (.store c)

def lifecycle (c : LifecycleCall (Except WorkerError α)) : Managed α := attempt (.lifecycle c)

/-! ## Recovery from a durable authority -/

def advance (authority : CleanupAuthority) (execution : Execution)
    (disposition : CleanupDisposition) : Managed CleanupDisposition := do
  provided (disposition ≠ .gitRecoveredCleaned) (lifecycle (.ack authority disposition))
  let next ← lifecycle (.step authority execution disposition)
  store (.transitionCleanup authority.executionId disposition next authority.handles)
  pure next

/-- `while` there is a step to make. -/
def advanceWhile (authority : CleanupAuthority) (execution : Execution) :
    Nat → CleanupDisposition → Managed CleanupDisposition
  | 0, disposition => pure disposition
  | n + 1, disposition =>
    if disposition.stepsLeft = 0 then pure disposition
    else do
      let next ← advance authority execution disposition
      advanceWhile authority execution n next

def fencedDisposition (authority : CleanupAuthority) : Managed CleanupDisposition :=
  if authority.phase.cleaning ∨ authority.phase = .cleanupPending then pure authority.phase
  else do
    store (.fenceForCleanup authority.executionId authority.handles)
    pure .cleanupPending

def finalizeReleased (authority : CleanupAuthority) (disposition : CleanupDisposition) :
    Managed CleanupDisposition :=
  if disposition = .storageReleased then do
    let _ ← store (.finalizeCleanup authority.executionId authority.attemptId)
    pure .reservationReleased
  else pure disposition

def resolveReleased (authority : CleanupAuthority) : Managed Unit := do
  lifecycle (.ack authority .reservationReleased)
  store (.resolve authority.executionId)

def completeCancellation (authority : CleanupAuthority) : Managed Unit := do
  let _ ← store (.completeCancellation authority.executionId authority.attemptId)

def tearDown (rounds : Nat) (authority : CleanupAuthority) (execution : Execution) :
    Managed Unit := do
  let disposition ← fencedDisposition authority
  let disposition ← advanceWhile authority execution rounds disposition
  let disposition ← finalizeReleased authority disposition
  provided (disposition = .reservationReleased) (resolveReleased authority)

def recoverCleanupAuthority (rounds : Nat) (authority : CleanupAuthority) (execution : Execution) :
    Managed Unit := do
  let cancellationPending ← store (.cancellationRequested authority.executionId)
  if authority.phase = .retained ∧ !cancellationPending then pure ()
  else do
    provided (authority.phase ≠ .resolved) (tearDown rounds authority execution)
    provided cancellationPending (completeCancellation authority)

/-! ## Cleanup by the task itself -/

def guard (step : GuardStep) : ManagedTask Unit := do
  await fun x => lifecycle (.guard step x)
  update fun x => { x with guard := step.note x.guard }

def transitionCleanup (expected next : CleanupDisposition) : ManagedTask Unit :=
  await fun x => store (.transitionCleanup x.execution.id expected next x.handles)

def fence : ManagedTask Unit := await fun x => do
  let authority ← store (.getAuthority x.execution.id)
  provided (authority.phase ≠ .cleanupPending)
    (store (.fenceForCleanup x.execution.id x.handles))

def cleanupPhases : ManagedTask Unit := do
  fence
  guard .stopRuntimeProcess
  transitionCleanup .cleanupPending .runtimeStopped
  guard .destroyRuntime
  transitionCleanup .runtimeStopped .runtimeDestroyed
  guard .destroyWorktree
  transitionCleanup .runtimeDestroyed .gitRecoveredCleaned
  guard .releaseStorage
  transitionCleanup .gitRecoveredCleaned .storageReleased

def logging (errors : List String) (p : Managed Unit) : Managed (List String) := do
  let r ← observe p
  match r with
  | .ok () => pure errors
  | .error e => pure (errors ++ [e.reported])

def acknowledge (id : ExecutionId) : Managed Unit := do
  let authority ← store (.getAuthority id)
  lifecycle (.ack authority .reservationReleased)

def finalizeAndResolve (id : ExecutionId) (attemptId : AttemptId) (errors : List String) :
    Managed (List String) := do
  let finalized ← observe (store (.finalizeCleanup id attemptId))
  match finalized with
  | .error e => pure (errors ++ [e.reported])
  | .ok _ => do
    let errors ← logging errors (acknowledge id)
    if errors = [] then logging errors (store (.resolve id)) else pure errors

/-- `cleanup_phases` and what a task does after it. -/
def tearDownTask (attemptId : AttemptId) (errors : List String) : ManagedTask (List String) := do
  let cleaned ← catchS cleanupPhases
  match cleaned with
  | .error e => pure (errors ++ [e.text])
  | .ok () => await fun x => finalizeAndResolve x.execution.id attemptId errors

def completeTask (cancellation : Bool) (attemptId : AttemptId) (errors : List String) :
    ManagedTask (List String) := await fun x =>
  if errors = [] ∧ cancellation then
    logging errors (do
      let _ ← store (.completeCancellation x.execution.id attemptId))
  else pure errors

/-- The end of a task that is not retained; returns the errors. -/
def cleanUpTask (cancellation : Bool) (attemptId : AttemptId) (errors : List String) :
    ManagedTask (List String) := do
  let errors ← tearDownTask attemptId errors
  completeTask cancellation attemptId errors

end Managed

/-! ## The lifecycle of the host -/

def GuardStep.task : GuardStep → Task Unit
  | stopRuntimeProcess => Task.stopAgent
  | destroyRuntime => Task.destroyRuntime
  | destroyWorktree => Task.destroyWorktree
  | releaseStorage => Task.releaseStorage

def LifecycleCall.meaning : {β : Type} → LifecycleCall β → Prog WorkerCall β
  | _, .guard made x => (Task.runFrom x made.task).run
  | _, .step authority execution disposition =>
    (Lifecycle.cleanupAuthorityStep authority execution disposition).run
  | _, .ack authority disposition =>
    (Lifecycle.ackCleanupAuthorityStep authority disposition).run

def TaskCall.asAgent : {β : Type} → TaskCall β → AgentCall β
  | _, .cancel id => .cancelTask id
  | _, .signalControl id control => .signalControl id control

def TraitCall.meaning {β : Type} : TraitCall β → Prog WorkerCall β
  | .store c => Prog.ask (.store c false)
  | .lifecycle c => c.meaning
  | .task c => Prog.ask (.agent c.asAgent)

end Orchestrator
