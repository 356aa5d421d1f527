import Orchestrator.Core.Manifest

/-!
# Executions and their events

The authoritative execution record with its state machine (`execution.rs`), the failure classes
(`error.rs`), ownership labels (`labels.rs`) and the events published for an execution
(`event.rs`). `ExecutionState.canTransitionTo` is the only place that says which state may follow
which; `ExecutionState.text` is the SCREAMING_SNAKE_CASE form stored in the database and
`ExecutionState.debug` the form error messages print.
-/

namespace Orchestrator

open Txn

inductive FailureClass where
  | environmentFailed | harnessFailed | modelFailed | timeout | inactivity | resourceViolation
  | workerLost | cancelled | taskFailed | internal
deriving DecidableEq, Repr

/-! ## The state machine -/

inductive ExecutionState where
  | queued | workerAssigned | provisioning | running | pausedForHuman | reviewReady
  | completed | failed | cancelled
deriving DecidableEq, Repr

namespace ExecutionState

def isTerminal : ExecutionState → Bool
  | completed | failed | cancelled => true
  | _ => false

def canTransitionTo (self next : ExecutionState) : Bool :=
  if self = next then false else
  match self, next with
  | _, cancelled | _, failed => !self.isTerminal
  | queued, workerAssigned => true
  | workerAssigned, provisioning => true
  | provisioning, running => true
  | running, pausedForHuman | pausedForHuman, running => true
  | running, reviewReady | running, completed => true
  | reviewReady, completed => true
  | _, _ => false

def text : ExecutionState → String
  | queued => "QUEUED"
  | workerAssigned => "WORKER_ASSIGNED"
  | provisioning => "PROVISIONING"
  | running => "RUNNING"
  | pausedForHuman => "PAUSED_FOR_HUMAN"
  | reviewReady => "REVIEW_READY"
  | completed => "COMPLETED"
  | failed => "FAILED"
  | cancelled => "CANCELLED"

def debug : ExecutionState → String
  | queued => "Queued"
  | workerAssigned => "WorkerAssigned"
  | provisioning => "Provisioning"
  | running => "Running"
  | pausedForHuman => "PausedForHuman"
  | reviewReady => "ReviewReady"
  | completed => "Completed"
  | failed => "Failed"
  | cancelled => "Cancelled"

instance : ToString ExecutionState := ⟨debug⟩

theorem canTransitionTo_of_isTerminal {a b : ExecutionState} (h : a.isTerminal = true) :
    a.canTransitionTo b = false := by
  cases a <;> cases b <;> first | rfl | cases h

/-- `QUEUED` is entered by no ordinary transition, only by a requeue. -/
theorem canTransitionTo_queued (a : ExecutionState) : a.canTransitionTo queued = false := by
  cases a <;> rfl

end ExecutionState

/-! ## The execution record -/

structure TestSummary where
  passed : Nat
  failed : Nat
  skipped : Nat := 0
deriving DecidableEq, Repr

/-- Outcome handed back to the planner: evidence, never a decision. -/
structure ExecutionResult where
  executionId : ExecutionId
  state : ExecutionState
  failure : Option FailureClass := none
  branch : Option String := none
  baseSha : Option String := none
  diffArtifact : Option String := none
  artifacts : List String := []
  tests : Option TestSummary := none
deriving DecidableEq, Repr

inductive ExecutionControlAction where
  | pause | resume | forkConversation
deriving DecidableEq, Repr

def ExecutionControlAction.debug : ExecutionControlAction → String
  | pause => "Pause"
  | resume => "Resume"
  | forkConversation => "ForkConversation"

instance : ToString ExecutionControlAction := ⟨ExecutionControlAction.debug⟩

structure OwnershipLabels where
  executionId : ExecutionId
  workerId : WorkerId
  repository : String
  issue : Option String := none
deriving DecidableEq, Repr

abbrev Labels := List (String × String)

def OwnershipLabels.toMap (l : OwnershipLabels) : Labels :=
  [("autospec.managed", "true"), ("autospec.execution_id", l.executionId.value),
    ("autospec.worker_id", l.workerId.value), ("autospec.repository", l.repository)] ++
    (l.issue.map fun issue => ("autospec.issue", issue)).toList

structure Execution where
  id : ExecutionId
  role : Role
  state : ExecutionState
  manifest : ExecutionManifest
  workerId : Option WorkerId := none
  attemptId : Option AttemptId := none
  sessionId : Option SessionId := none
  worktreePath : Option String := none
  labels : OwnershipLabels
  createdAt : Timestamp
  updatedAt : Timestamp
  result : Option ExecutionResult := none
deriving DecidableEq, Repr

/-- `Execution::transition` at time `now`; the error is the illegal pair of states. -/
def Execution.transition (now : Timestamp) (e : Execution) (next : ExecutionState) :
    Except (ExecutionState × ExecutionState) Execution := do
  ensure (e.state.canTransitionTo next) (e.state, next)
  pure { e with state := next, updatedAt := now }

theorem Execution.transition_eq_ok {now : Timestamp} {e e' : Execution} {next : ExecutionState} :
    e.transition now next = .ok e' ↔
      e.state.canTransitionTo next ∧ e' = { e with state := next, updatedAt := now } := by
  simp only [Execution.transition, bind_eq_ok, ensure_eq_ok, pure_eq_ok]
  constructor
  · rintro ⟨_, h, he⟩
    exact ⟨h, he.symm⟩
  · rintro ⟨h, he⟩
    exact ⟨(), h, he.symm⟩

/-! ## Events -/

inductive WatchdogVerdict where
  | healthy | quietHealthy | stalled
deriving DecidableEq, Repr

inductive ExecutionEventKind where
  | executionCreated
  | workerAssigned (workerId : WorkerId)
  | environmentReady
  | agentStarted (sessionId : SessionId)
  | testsStarted
  | testsFailed
  | reviewReady
  | executionRequeued (failure : FailureClass)
  | executionFailed (failure : FailureClass)
  | executionCompleted
  | executionCancelled
  | agentInactive (seconds : Nat)
  | executionPaused
  | executionResumed
  | conversationForked (sessionId : SessionId)
  | watchdogSample (verdict : WatchdogVerdict) (currentCommand : Option String)
      (lastProgressAt : Option Timestamp) (cpuPercent : Option Rat) (rssBytes : Option Nat)
      (ioBytes : Option Nat) (diskBytes : Option Nat)
deriving DecidableEq, Repr

structure ExecutionEvent where
  executionId : ExecutionId
  attemptId : Option AttemptId := none
  sequence : Nat
  at_ : Timestamp
  state : ExecutionState
  kind : ExecutionEventKind
deriving DecidableEq, Repr

end Orchestrator
