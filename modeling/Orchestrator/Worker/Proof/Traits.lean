import Orchestrator.Lib.Interpret
import Orchestrator.Worker.Traits
import Orchestrator.Worker.Proof.Coverage

/-!
# The cleanup programs on a host

With the lifecycle of the host in the place of the trait, the cleanup programs over the traits are
those of `Worker.Recovery` and `Worker.Run`. The loop of the recovery needs no more than four rounds,
since a step of the host's lifecycle that succeeds returns the next phase.
-/

namespace Orchestrator

open Prog

namespace Managed

variable {α : Type} {authority : CleanupAuthority} {execution : Execution} {d : CleanupDisposition}
  {id : ExecutionId} {attemptId : AttemptId} {errors : List String}

abbrev onHost (p : Managed α) : Effect α := interpretE TraitCall.meaning p

abbrev taskOnHost (t : ManagedTask α) : Task α := interpretS TraitCall.meaning t

@[simp] theorem onHost_store (c : StoreCall (Except StoreError α)) : onHost (store c) = Effect.store c :=
  interpretE_attemptAs _ _ _

@[simp] theorem onHost_step :
    onHost (lifecycle (.step authority execution d)) =
      Lifecycle.cleanupAuthorityStep authority execution d :=
  interpretE_attempt _ _

@[simp] theorem onHost_ack :
    onHost (lifecycle (.ack authority d)) = Lifecycle.ackCleanupAuthorityStep authority d :=
  interpretE_attempt _ _

@[simp] theorem onHost_advance :
    onHost (advance authority execution d) = Worker.advance authority execution d := by
  simp [advance, Worker.advance]

theorem within_advance : (Worker.advance authority execution d).run.Within (fun _ => True)
    fun r => ∀ next, r = .ok next → next.stepsLeft + 1 = d.stepsLeft := by
  refine within_bind_run Only.true fun _ => ?_
  have hstep : (Lifecycle.cleanupAuthorityStep authority execution d).run.Within (fun _ => True)
      fun r => ∀ next, r = .ok next → next.stepsLeft + 1 = d.stepsLeft :=
    (Lifecycle.within_cleanupAuthorityStep.calls fun _ _ => trivial).mono
      fun r hr next hnext => (hr next hnext).2.2
  refine within_bind hstep fun r hr => ?_
  cases r with
  | error err => exact nofun
  | ok next =>
    refine within_bind_run Only.true fun _ => ?_
    rintro _ ⟨⟩
    exact hr next rfl

theorem onHost_advanceWhile {n : Nat} (hn : d.stepsLeft ≤ n) :
    onHost (advanceWhile authority execution n d) =
      Worker.advanceAll authority execution d.stepsLeft d := by
  induction n generalizing d with
  | zero =>
    rw [Nat.le_zero.1 hn]
    rfl
  | succ n ih =>
    unfold advanceWhile
    cases hleft : d.stepsLeft with
    | zero => rfl
    | succ k =>
      simp only [onHost, Nat.succ_ne_zero, if_false, interpretE_bind]
      refine (congrArg (· >>= _) onHost_advance).trans ?_
      refine bind_congr_within within_advance fun r hr => ?_
      cases r with
      | error err => rfl
      | ok next =>
        have hnext := hr next rfl
        obtain rfl : next.stepsLeft = k := by omega
        exact ih (by omega)

@[simp] theorem onHost_fencedDisposition :
    onHost (fencedDisposition authority) = Worker.fencedDisposition authority := by
  unfold fencedDisposition Worker.fencedDisposition
  split <;> simp

@[simp] theorem onHost_finalizeReleased :
    onHost (finalizeReleased authority d) = Worker.finalizeReleased authority d := by
  unfold finalizeReleased Worker.finalizeReleased
  split <;> simp

@[simp] theorem onHost_resolveReleased :
    onHost (resolveReleased authority) = Worker.resolveReleased authority := by
  simp [resolveReleased, Worker.resolveReleased]

theorem stepsLeft_le (d : CleanupDisposition) : d.stepsLeft ≤ 4 := by
  cases d <;> simp [CleanupDisposition.stepsLeft]

@[simp] theorem onHost_tearDown (k : Nat) :
    onHost (tearDown (4 + k) authority execution) = Worker.tearDown authority execution := by
  have hloop : ∀ d, onHost (advanceWhile authority execution (4 + k) d) =
      Worker.advanceAll authority execution d.stepsLeft d :=
    fun d => onHost_advanceWhile ((stepsLeft_le d).trans (Nat.le_add_right 4 k))
  simp [tearDown, Worker.tearDown, hloop]

theorem onHost_recoverCleanupAuthority (k : Nat) :
    onHost (recoverCleanupAuthority (4 + k) authority execution) =
      Worker.recoverCleanupAuthority authority execution := by
  simp only [recoverCleanupAuthority, Worker.recoverCleanupAuthority, interpretE_bind, onHost_store]
  refine congrArg _ (funext fun pending => ?_)
  split <;> simp [completeCancellation, Worker.completeCancellation]

/-! ## The task's own cleanup -/

/-- A step of the guard leaves the local state when it fails, and notes when it succeeds. -/
theorem within_guardStep (step : GuardStep) (x : TaskState) :
    (step.task.run.run x).Within (fun _ => True) fun r =>
      r.2 = if r.1.isOk then { x with guard := step.note x.guard } else x := by
  have hread : ∀ p : TaskState → Effect Unit,
      ((await p).run.run x).Within (fun _ => True) fun r => r.2 = x :=
    fun p => within_bind Only.true.within fun _ _ => rfl
  cases step with
  | stopRuntimeProcess =>
    obtain ⟨execution, ⟨_, _, _, _, session, _, stopped⟩⟩ := x
    cases session with
    | none => cases stopped <;> rfl
    | some session =>
      cases stopped with
      | true => rfl
      | false =>
        refine ⟨trivial, fun r => ?_⟩
        cases r <;> rfl
  | destroyRuntime =>
    refine within_bind (hread fun x => provided x.guard.runtimeCreated
      (Lifecycle.destroyRuntime x.guard.execution)) fun r hr => ?_
    obtain ⟨r, y⟩ := r
    obtain rfl : y = x := hr
    cases r <;> rfl
  | destroyWorktree => exact (hread _).mono fun r hr => hr.trans (ite_self x).symm
  | releaseStorage => exact (hread _).mono fun r hr => hr.trans (ite_self x).symm

@[simp] theorem taskOnHost_guard (step : GuardStep) : taskOnHost (guard step) = step.task := by
  simp only [guard, interpretS_bind, interpretS_await, interpretS_update, lifecycle,
    interpretE_attempt]
  exact await_update (within_guardStep step)

@[simp] theorem taskOnHost_transitionCleanup (expected next : CleanupDisposition) :
    taskOnHost (transitionCleanup expected next) = Task.transitionCleanup expected next := by
  simp [transitionCleanup, Task.transitionCleanup]

@[simp] theorem taskOnHost_fence : taskOnHost fence = Task.fence := by
  simp [fence, Task.fence]

@[simp] theorem taskOnHost_cleanupPhases : taskOnHost cleanupPhases = Task.cleanupPhases := by
  simp [cleanupPhases, Task.cleanupPhases, GuardStep.task]

@[simp] theorem onHost_logging (p : Managed Unit) :
    onHost (logging errors p) = Task.logging errors (onHost p) := by
  simp only [onHost, logging, Task.logging, interpretE_bind, interpretE_observe]
  refine congrArg _ (funext fun r => ?_)
  cases r <;> rfl

@[simp] theorem onHost_acknowledge : onHost (acknowledge id) = Task.acknowledge id := by
  simp [acknowledge, Task.acknowledge]

@[simp] theorem onHost_finalizeAndResolve :
    onHost (finalizeAndResolve id attemptId errors) =
      Task.finalizeAndResolve id attemptId errors := by
  simp only [finalizeAndResolve, Task.finalizeAndResolve, interpretE_bind, interpretE_observe,
    onHost_store]
  refine congrArg _ (funext fun r => ?_)
  cases r with
  | error e => rfl
  | ok u =>
    simp only [interpretE_bind, onHost_logging, onHost_acknowledge]
    refine congrArg _ (funext fun errors => ?_)
    split <;> simp

@[simp] theorem taskOnHost_tearDownTask :
    taskOnHost (tearDownTask attemptId errors) = Task.tearDown attemptId errors := by
  simp only [tearDownTask, Task.tearDown, interpretS_bind, interpretS_catchS,
    taskOnHost_cleanupPhases]
  refine congrArg _ (funext fun r => ?_)
  cases r <;> simp

@[simp] theorem taskOnHost_completeTask {cancellation : Bool} :
    taskOnHost (completeTask cancellation attemptId errors) =
      Task.completeCancellation cancellation attemptId errors := by
  simp only [completeTask, Task.completeCancellation, interpretS_await]
  refine congrArg _ (funext fun x => ?_)
  split <;> simp

theorem taskOnHost_cleanUpTask {cancellation : Bool} :
    taskOnHost (cleanUpTask cancellation attemptId errors) = (do
      let errors ← Task.tearDown attemptId errors
      Task.completeCancellation cancellation attemptId errors) := by
  simp [cleanUpTask]

end Managed
end Orchestrator
