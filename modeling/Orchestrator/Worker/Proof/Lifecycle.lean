import Orchestrator.Storage.Proof.Manager
import Orchestrator.Worker.Run

/-!
# What the lifecycle calls

The functions of `SystemExecutionLifecycle` call storage, runtime and agent of the host, and never the
store (`WorkerCall.onHost`). Those that only build or remove a runtime meet any predicate that all
runtime calls meet. A step of a cleanup calls for its own execution only (`WorkerCall.tends`), and its
acknowledgment removes nothing but a tombstone (`WorkerCall.acks`).
-/

namespace Orchestrator

open Prog Effect

/-- The phases in which the reservation of the attempt has been given back. -/
def CleanupDisposition.parked : CleanupDisposition → Bool
  | retained | reservationReleased | resolved => true
  | _ => false

/-- Calls of the lifecycle, which knows no store. -/
def WorkerCall.onHost {β : Type} : WorkerCall β → Prop
  | .store _ _ => False
  | _ => True

/-- Those for execution `e`. -/
def WorkerCall.tends {β : Type} (e : ExecutionId) : WorkerCall β → Prop
  | .store _ _ => False
  | .storage id _ | .runtime id _ => id = e
  | .agent _ => True

/-- Those that acknowledge a cleanup of `e`. -/
def WorkerCall.acks {β : Type} (e : ExecutionId) : WorkerCall β → Prop
  | .store _ _ | .runtime _ _ => False
  | .storage id c => id = e ∧ ExecutionStorage.acknowledges c
  | .agent _ => True

theorem WorkerCall.tends_of_acks {β : Type} {e : ExecutionId} (c : WorkerCall β) (h : c.acks e) :
    c.tends e := by
  cases c with
  | store | runtime => exact h.elim
  | storage => exact h.1
  | agent => trivial

theorem WorkerCall.onHost_of_tends {β : Type} {e : ExecutionId} (c : WorkerCall β)
    (h : c.tends e) : c.onHost := by
  cases c with
  | store => exact h
  | _ => trivial

namespace Lifecycle

variable {α : Type} {execution : Execution}

/-! ## The runtime -/

section Runtime
variable {P : {β : Type} → WorkerCall β → Prop}

theorem only_destroy {labels : OwnershipLabels}
    (hP : ∀ {β : Type} (op : RuntimeOp β), P (.runtime labels.executionId op)) :
    (destroy labels).run.Only P := by
  refine .seq (.attemptAs (hP _)) fun _ => .seq (.attemptAs (hP _)) fun _ => ?_
  refine .seq (.observe (.attemptAs (hP _))) fun _ => ?_
  refine .seq (.observe (.attemptAs (hP _))) fun _ => ?_
  exact .seq (.observe (.attemptAs (hP _))) fun _ => .refuse

variable (hP : ∀ {β : Type} (id : ExecutionId) (op : RuntimeOp β), P (.runtime id op))
include hP

theorem only_revokeAndFail {id : ExecutionId} {error : String} :
    (revokeAndFail id error : Effect α).run.Only P := by
  refine .seq (.observe (.attemptAs (hP _ _))) fun revocation => ?_
  cases revocation with
  | ok u => exact .throw _
  | error err => exact .throw _

theorem only_build : (build execution).run.Only P := by
  refine .seq .refuse fun _ => .seq (.attemptAs (hP _ _)) fun _ => ?_
  refine .seq (.attemptAs (hP _ _)) fun valid => ?_
  split
  · refine .seq (.observe (.attemptAs (hP _ _))) fun connected => ?_
    cases connected with
    | ok u => exact .pure _
    | error err => exact only_revokeAndFail hP
  · exact only_revokeAndFail hP

theorem only_provision : (provision execution).run.Only P := by
  have hinner : (provisionInner execution.labels execution.manifest.services).run.Only P := by
    refine .seq (.attemptAs (hP _ _)) fun _ => ?_
    refine .seq (.attemptAs (hP _ _)) fun _ => ?_
    refine .seq (.forEach (fun _ => .attemptAs (hP _ _)) _) fun _ => ?_
    refine .seq (.attemptAs (hP _ _)) fun _ => ?_
    exact .seq (.attemptAs (hP _ _)) fun _ => .attemptAs (hP _ _)
  have hruntime : (provisionRuntime execution.labels execution.manifest.services).run.Only P := by
    refine .seq (.attemptAs (hP _ _)) fun _ => ?_
    refine .seq (.observe hinner) fun provisioned => ?_
    cases provisioned with
    | ok environment => exact .pure _
    | error err =>
      refine .seq (.observe (only_destroy (hP _))) fun rollback => ?_
      cases rollback with
      | ok u => exact .throw _
      | error undo => exact .throw _
  refine .seq (only_build hP) fun _ => ?_
  refine .seq (.observe hruntime) fun provisioned => ?_
  cases provisioned with
  | ok environment => exact .pure _
  | error err => exact only_revokeAndFail hP

theorem only_buildForAdoption : (buildForAdoption execution).run.Only P :=
  .seq (only_build hP) fun _ => .seq (.attemptAs (hP _ _)) fun _ =>
    .seq (.attemptAs (hP _ _)) fun _ => .refuse

end Runtime

/-! ## Cleanup -/

section Cleanup
variable {P : {β : Type} → WorkerCall β → Prop} {authority : CleanupAuthority} {d : CleanupDisposition}

theorem only_storage {id : ExecutionId} (hP : ∀ {β : Type} (c : StorageCall β), P (.storage id c))
    (p : StorageM α) : (storage id p).run.Only P :=
  .bind (.embed (Q := fun _ => True) (fun c _ => hP c) Only.true) fun _ => trivial

theorem only_stopAbandoned (hP : ∀ {β : Type} (c : AgentCall β), P (.agent c)) :
    (stopAbandoned authority execution).run.Only P := by
  unfold stopAbandoned
  split
  · exact .seq .refuse fun _ => .attempt (hP _)
  · exact .pure _

theorem within_cleanupAuthorityStep :
    (cleanupAuthorityStep authority execution d).run.Within (WorkerCall.tends authority.executionId)
      fun r => ∀ next, r = .ok next →
        next.cleaning = true ∧ next.parked = false ∧ next.stepsLeft + 1 = d.stepsLeft := by
  cases d with
  | cleanupPending =>
    refine within_bind_run .refuse fun _ => within_bind_run (only_stopAbandoned fun _ => trivial)
      fun _ => ?_
    rintro _ ⟨⟩
    exact ⟨rfl, rfl, rfl⟩
  | runtimeStopped =>
    refine within_bind_run (.whenSome fun receipt _ => .refuse_bind fun hid => ?_) fun _ =>
      within_bind_run (.attemptAs rfl) fun _ => ?_
    · exact .seq (.attemptAs rfl) fun _ => .provided fun _ => .seq (.attemptAs rfl) fun _ =>
        only_destroy fun _ => not_not.1 hid
    · rintro _ ⟨⟩
      exact ⟨rfl, rfl, rfl⟩
  | runtimeDestroyed =>
    refine within_bind_run (.whenSome fun _ _ => .seq .refuse fun _ =>
      .attempt trivial) fun _ => within_bind_run (.attempt trivial) fun _ => ?_
    rintro _ ⟨⟩
    exact ⟨rfl, rfl, rfl⟩
  | gitRecoveredCleaned =>
    refine within_bind_run (.whenSome fun _ _ => .refuse_bind fun hid =>
      only_storage (fun _ => not_not.1 hid) _) fun _ => ?_
    rintro _ ⟨⟩
    exact ⟨rfl, rfl, rfl⟩
  | _ => exact nofun

theorem only_ackCleanupAuthorityStep (hP : ∀ {β : Type} (c : WorkerCall β),
    c.acks authority.executionId → P c) : (ackCleanupAuthorityStep authority d).run.Only P := by
  have hworktree : (whenSome authority.handles.worktree (ackOwnedWorktree authority)).run.Only P :=
    .whenSome fun _ _ => .seq .refuse fun _ => .attempt (hP _ trivial)
  have hstorage : (whenSome authority.handles.receipt (ackOwnedStorage authority)).run.Only P := by
    refine .whenSome fun receipt _ => .refuse_bind fun hid => .bind ?_ fun _ => trivial
    exact .embed (fun c hc => hP (.storage _ c) ⟨not_not.1 hid, hc⟩) (ExecutionStorage.only_ackRelease receipt)
  cases d with
  | gitRecoveredCleaned => exact hworktree
  | storageReleased => exact hstorage
  | reservationReleased => exact .seq hworktree fun _ => hstorage
  | _ => exact .pure _

end Cleanup

end Lifecycle
end Orchestrator
