import Orchestrator.Storage.Manager
import Orchestrator.Persistence.Calls
import Orchestrator.Worker.Health

/-!
# What a worker calls

A worker process drives an execution by calls of four kinds: of the controller's store, of the
storage and of the container runtime of its host, and of the agent harness, the Git worktrees, the
clocks and its own tasks. `World` is what these calls read and change and what outlives a crash: the database, and what
the host holds of every execution. Calls of the last kind (`AgentCall`) leave nothing in it, so their
replies are arbitrary. Every call may fail; a store call or a container command that reports an error
may still have taken effect.

An effect on storage or runtime resources is one call, so a crash may fall between any two of them.
-/

namespace Orchestrator

open Prog

/-! ## Errors -/

inductive WorkerError where
  | lifecycle (detail : String)
  | persistence (detail : String)
  | panic (message : String)
  | cleanup (message : String)
  | executionAndCleanup (execution cleanup : String)
  | invalid (message : String)
  | cancelled
deriving DecidableEq, Repr

def WorkerError.text : WorkerError → String
  | lifecycle detail => s!"execution lifecycle step failed: {detail}"
  | persistence detail => s!"execution persistence failed: {detail}"
  | panic message => s!"execution panicked: {message}"
  | cleanup message => s!"cleanup failed: {message}"
  | executionAndCleanup execution teardown =>
    s!"execution failed: {execution}; cleanup also failed: {teardown}"
  | invalid message => s!"execution is invalid: {message}"
  | cancelled => "execution was cancelled"

instance : ToString WorkerError := ⟨WorkerError.text⟩

/-- The text of the error a lifecycle or store call reported. -/
def WorkerError.detail : WorkerError → String
  | lifecycle detail | persistence detail => detail
  | e => e.text

def StoreError.text : StoreError → String
  | db detail => s!"database error: {detail}"
  | notFound what => s!"record not found: {what}"
  | illegalTransition source target => s!"illegal state transition: {source} -> {target}"
  | conflict message => s!"storage conflict: {message}"
  | idempotencyConflict message => s!"idempotency conflict: {message}"
  | duplicateExecutionId id => s!"execution id already exists: {id}"

instance : ToString StoreError := ⟨StoreError.text⟩

/-- How a task's report names an error: the store's own text, or that of the worker. -/
def WorkerError.reported : WorkerError → String
  | persistence detail => detail
  | e => e.text

/-! ## The container runtime of a host -/

/-- What the container daemon and the credential broker hold of one execution. -/
structure RuntimeState where
  containers : Bool := false
  volumes : Bool := false
  network : Bool := false
  credential : Bool := false
deriving DecidableEq, Repr

/-- `docker_resource_names` finds something. -/
def RuntimeState.present (r : RuntimeState) : Bool := r.containers || r.network || r.volumes

inductive RuntimeChange where
  | mint | revoke | createNetwork | createContainer | removeContainers | removeVolumes
  | removeNetworks
deriving DecidableEq, Repr

def RuntimeChange.apply : RuntimeChange → RuntimeState → RuntimeState
  | mint, r => { r with credential := true }
  | revoke, r => { r with credential := false }
  | createNetwork, r => { r with network := true }
  | createContainer, r => { r with containers := true }
  | removeContainers, r => { r with containers := false }
  | removeVolumes, r => { r with volumes := false }
  | removeNetworks, r => { r with network := false }

inductive RuntimeOp : Type → Type
  /-- Connections, images, mounts, compatibility of the daemon, labels. -/
  | check : RuntimeOp (Except String Unit)
  /-- The minted credential is live and lies in the execution's storage. -/
  | credentialValid : RuntimeOp (Except String Bool)
  | present : RuntimeOp (Except String Bool)
  /-- Inspect the agent container. -/
  | describe : RuntimeOp (Except String EnvironmentHandle)
  | change (u : RuntimeChange) : RuntimeOp (Except String Unit)

def RuntimeOp.Does : {β : Type} → RuntimeOp β → RuntimeState → β → RuntimeState → Prop
  | _, .check, s, _, s' => s' = s
  | _, .credentialValid, s, _, s' => s' = s
  | _, .present, s, r, s' => s' = s ∧ ∀ b, r = .ok b → b = s.present
  | _, .describe, s, _, s' => s' = s
  | _, .change u, s, r, s' => s' = u.apply s ∨ s' = s ∧ r.isOk = false

/-! ## Harness, worktrees and clocks -/

/-- What ends a `tokio::select!` over a call, the control channel (closed when `none`) and the
cancellation flag. -/
inductive Wake (α : Type) where
  | done (a : α)
  | control (c : Option PendingExecutionControl)
  | cancelled
deriving Repr

structure DiffCapture where
  patch : String
  changedFiles : List String
deriving DecidableEq, Repr

/-- `.autospec-owner.json` of a worktree. -/
structure WorktreeOwner where
  labels : OwnershipLabels
  branch : String
  baseSha : String
deriving DecidableEq, Repr

inductive AgentCall : Type → Type
  /-- `Utc::now`. -/
  | now : AgentCall Timestamp
  /-- `Instant::now`. -/
  | instant : AgentCall Instant
  /-- `cancelled.load`. -/
  | cancelled : AgentCall Bool
  /-- Wait for a control or a cancellation. -/
  | awaitControl : AgentCall (Wake Empty)
  | poll (execution : Execution) (session : SessionRef) :
      AgentCall (Wake (Except WorkerError (List ExecutionEvent)))
  | resourceSample (execution : Execution) : AgentCall (Wake (Except WorkerError ResourceSample))
  | createIn (labels : OwnershipLabels) (repo base branch : String) (receipt : AllocationReceipt) :
      AgentCall (Except WorkerError Worktree)
  | start (execution : Execution) (receipt : AllocationReceipt) (environment : EnvironmentHandle)
      (worktree : Worktree) (packet : TaskPacket) : AgentCall (Except WorkerError SessionRef)
  | resume (execution : Execution) (receipt : AllocationReceipt) (environment : EnvironmentHandle)
      (session : SessionRef) : AgentCall (Except WorkerError Unit)
  | pause (execution : Execution) (session : SessionRef) : AgentCall (Except WorkerError Unit)
  | forkConversation (execution : Execution) (session : SessionRef) (target : SessionId) :
      AgentCall (Except WorkerError SessionRef)
  | stop (execution : Execution) (session : SessionRef) : AgentCall (Except WorkerError Unit)
  | capture (worktree : Worktree) : AgentCall (Except WorkerError DiffCapture)
  | persistEvidence (execution : Execution) (capture : DiffCapture) :
      AgentCall (Except WorkerError String)
  | destroyWorktree (worktree : Worktree) : AgentCall (Except WorkerError Unit)
  | ackDestroyWorktree (worktree : Worktree) : AgentCall (Except WorkerError Unit)
  | recoverInterruptedCreate (labels : OwnershipLabels) : AgentCall (Except WorkerError Unit)
  /-- Build a harness for the runtime and let it recover an abandoned agent. -/
  | recoverAbandoned (execution : Execution) (receipt : AllocationReceipt)
      (environment : EnvironmentHandle) (worktree : Worktree) : AgentCall (Except WorkerError Unit)
  | readOwner (execution : Execution) : AgentCall (Except WorkerError WorktreeOwner)
  /-- Are there durable agent holds of the execution, and does one belong to somebody else? -/
  | holds (execution : Execution) : AgentCall (Except WorkerError (Bool × Bool))
  /-- Any other check of what adoption relies on. -/
  | verifyAdoption (execution : Execution) : AgentCall (Except WorkerError Unit)
  /-- `ExecutionTask::cancel`: the flag the task with this id reads. -/
  | cancelTask (id : ExecutionId) : AgentCall Unit
  /-- `ExecutionTask::signal_control`: the channel of the task with this id. -/
  | signalControl (id : ExecutionId) (control : PendingExecutionControl) :
      AgentCall (Except WorkerError Unit)
  /-- How many rounds of the event loop are looked at. -/
  | rounds : AgentCall Nat
  /-- The rounds after that: no reply. -/
  | forever : AgentCall Empty

/-! ## All calls -/

inductive WorkerCall (β : Type) : Type
  /-- A call of the store; `relayed` when it publishes an event that was polled. -/
  | store (c : StoreCall β) (relayed : Bool)
  /-- A call of the storage of the execution with this id. -/
  | storage (id : ExecutionId) (c : StorageCall β)
  /-- A call of the container runtime, for the execution with this id. -/
  | runtime (id : ExecutionId) (op : RuntimeOp β)
  | agent (c : AgentCall β)

/-- What outlives a worker process. -/
structure World where
  store : Store
  storage : ExecutionId → Allocation
  runtime : ExecutionId → RuntimeState

namespace World

def setStorage (w : World) (id : ExecutionId) (a : Allocation) : World :=
  { w with storage := Function.update w.storage id a }

def setRuntime (w : World) (id : ExecutionId) (r : RuntimeState) : World :=
  { w with runtime := Function.update w.runtime id r }

end World

/-- What a call may answer, and what it leaves. -/
def WorkerCall.Does {β : Type} : WorkerCall β → World → β → World → Prop
  | .store c _, w, b, w' => ∃ now,
      (b = (c.exec now w.store).1 ∧ w' = { w with store := (c.exec now w.store).2 }) ∨
      ∃ e, b = c.failed e ∧ (w' = w ∨ w' = { w with store := (c.exec now w.store).2 })
  | .storage id c, w, b, w' => ∃ a, c.Does (w.storage id) b a ∧ w' = w.setStorage id a
  | .runtime id op, w, b, w' => ∃ r, op.Does (w.runtime id) b r ∧ w' = w.setRuntime id r
  | .agent _, w, _, w' => w' = w

def WorkerCall.undone {β : Type} : WorkerCall β → β → Prop
  | .storage _ c, b => c.undoing = true → c.op.succeeded b = true
  | _, _ => True

/-- Calls on a host where no call of a storage rollback fails. -/
def WorkerCall.Tidy {β : Type} (c : WorkerCall β) (w : World) (b : β) (w' : World) : Prop :=
  c.Does w b w' ∧ c.undone b

/-- A program of a worker that may fail. -/
abbrev Effect := ExceptT WorkerError (Prog WorkerCall)

namespace Effect

variable {α : Type}

def store (c : StoreCall (Except StoreError α)) : Effect α :=
  attemptAs (fun e => .persistence e.text) (.store c false)

def storage (id : ExecutionId) (p : StorageM α) : Effect α :=
  ExceptT.mk (p.run.embed (.storage id) >>= fun r =>
    .pure (r.mapError fun e => .lifecycle e.text))

def runtime (id : ExecutionId) (op : RuntimeOp (Except String α)) : Effect α :=
  attemptAs .lifecycle (.runtime id op)

def agent (c : AgentCall (Except WorkerError α)) : Effect α := attempt (.agent c)

/-- A call that cannot fail. -/
def ask (c : AgentCall α) : Effect α := ExceptT.mk (Prog.ask (.agent c) >>= fun a => .pure (.ok a))

def fail (detail : String) : Effect α := throw (.lifecycle detail)

end Effect
end Orchestrator
