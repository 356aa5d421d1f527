import Orchestrator.Persistence.Proof.Specs

/-!
# Write sets

`StoreCall.writes` lists the tables a call may write; `Committed.frame` proves that it writes no
other. An invariant proof then only looks at the calls that write a table it mentions.
-/

namespace Orchestrator

open Relational

inductive TableName where
  | executions | events | workers | reservations | attempts | authorities | cancellations
  | controls | requests
deriving DecidableEq

open TableName in
def StoreCall.writes {β : Type} : StoreCall β → List TableName
  | .register _ | .heartbeat _ | .markStaleBefore _ => [workers]
  | .insert _ => [executions]
  | .createIdempotent .. => [executions, requests, .events]
  | .requestCancellation _ => [executions, cancellations, controls, .events]
  | .completeCancellation .. => [executions, attempts, cancellations, .events]
  | .transition .. => [executions]
  | .transitionWithEvent .. => [executions, .events]
  | .recordProgress .. => [executions, attempts, authorities, controls, .events]
  | .requestControl .. | .beginControl .. | .markControlSideEffectApplied .. => [controls]
  | .completeControl .. => [executions, attempts, controls, .events]
  | .reserveNext .. => [executions, attempts, reservations, workers]
  | .release _ | .releaseAttempt .. => [reservations, workers]
  | .commitRetainedAndReleaseCapacity .. => [reservations, workers, authorities]
  | .recoverUnreachable _ | .fenceLostAttempt .. => [attempts, authorities]
  | .finalizeCleanup .. => [executions, attempts, reservations, workers, authorities, .events]
  | .begin .. | .transitionCleanup .. | .fenceForCleanup .. | .resolve _ => [authorities]
  | .listWorkers | .getExecution _ | .cancellationRequested _ | .listPendingCancellations
  | .listPendingControls _ | .listReservations _ | .getAuthority _ | .listAuthorities _ => []

/-- `s'` differs from `s` in the tables of `ws` only. The default proofs serve an `s'` that is written
out as an update of `s`. -/
structure Frame (ws : List TableName) (s s' : Store) : Prop where
  executions : .executions ∉ ws → s'.executions = s.executions := by
    intro hn; first | rfl | simp [StoreCall.writes] at hn
  events : .events ∉ ws → s'.events = s.events := by
    intro hn; first | rfl | simp [StoreCall.writes] at hn
  workers : .workers ∉ ws → s'.workers = s.workers := by
    intro hn; first | rfl | simp [StoreCall.writes] at hn
  reservations : .reservations ∉ ws → s'.reservations = s.reservations := by
    intro hn; first | rfl | simp [StoreCall.writes] at hn
  attempts : .attempts ∉ ws → s'.attempts = s.attempts := by
    intro hn; first | rfl | simp [StoreCall.writes] at hn
  authorities : .authorities ∉ ws → s'.authorities = s.authorities := by
    intro hn; first | rfl | simp [StoreCall.writes] at hn
  cancellations : .cancellations ∉ ws → s'.cancellations = s.cancellations := by
    intro hn; first | rfl | simp [StoreCall.writes] at hn
  controls : .controls ∉ ws → s'.controls = s.controls := by
    intro hn; first | rfl | simp [StoreCall.writes] at hn
  requests : .requests ∉ ws → s'.requests = s.requests := by
    intro hn; first | rfl | simp [StoreCall.writes] at hn
  /-- Request identifiers are drawn for new control requests only. -/
  ids : .controls ∉ ws → s'.controlSequence = s.controlSequence := by
    intro hn; first | rfl | simp [StoreCall.writes] at hn

theorem Frame.refl (ws : List TableName) (s : Store) : Frame ws s s := {}

variable {s s' : Store} {now : Timestamp}

open Store in
theorem recover_frame {w : WorkerId} {r : List LostWorkerRecovery}
    (h : recoverUnreachable now w s = .ok (r, s')) : Frame [.attempts, .authorities] s s' := by
  refine recoverUnreachable_ind (P := fun _ => Frame [.attempts, .authorities] s) h (.refl _ _) ?_
  intro _ s₁ s₂ x _ hs₁ hfence
  obtain ⟨t, _, _, _, _, rfl⟩ := fenceAttempt_eq_some hfence
  exact { hs₁ with
    attempts := fun hn => by simp at hn
    authorities := fun hn => by simp at hn }

open Store in
theorem Committed.frame {β : Type} {call : StoreCall β} (h : Committed now s call s') :
    Frame call.writes s s' := by
  cases h with
  | recoverUnreachable h => exact recover_frame h
  | register h => rcases register_spec h with ⟨_, rfl⟩ | ⟨_, _, rfl⟩ <;> exact {}
  | heartbeat h => obtain ⟨_, _, rfl⟩ := heartbeat_spec h; exact {}
  | markStaleBefore h =>
    simp only [Store.markStaleBefore, Except.ok.injEq, Prod.mk.injEq] at h
    obtain ⟨_, rfl⟩ := h
    exact {}
  | insert h => obtain ⟨_, rfl⟩ := insert_spec h; exact {}
  | createIdempotent h =>
    rcases createIdempotent_spec h with rfl | ⟨_, _, _, rfl⟩ <;> exact {}
  | requestCancellation h =>
    obtain ⟨_, _, ⟨_, rfl⟩ | ⟨_, ⟨_, _, _, rfl⟩ | ⟨_, rfl⟩⟩⟩ := requestCancellation_spec h <;>
      exact {}
  | completeCancellation h => obtain ⟨_, _, _, _, rfl⟩ := completeCancellation_spec h; exact {}
  | transition h => obtain ⟨_, _, _, _, rfl⟩ := transition_spec h; exact {}
  | transitionWithEvent h => obtain ⟨_, _, _, _, _, rfl⟩ := transitionWithEvent_spec h; exact {}
  | recordProgress h => obtain ⟨_, _, _, _, _, rfl⟩ := recordProgress_spec h; exact {}
  | requestControl h =>
    rcases requestControl_spec h with rfl | ⟨_, _, _, rfl⟩ <;> exact {}
  | beginControl h =>
    obtain ⟨_, _, _, _, _, ⟨_, _, rfl⟩ | ⟨_, _, _, ⟨_, rfl⟩ | ⟨_, rfl⟩⟩⟩ := beginControl_spec h <;>
      exact {}
  | markControlSideEffectApplied h =>
    obtain ⟨_, _, rfl | ⟨_, _, _, rfl⟩ | ⟨_, _, _, _, rfl⟩⟩ := markControl_spec h <;> exact {}
  | completeControl h =>
    rcases completeControl_spec h with rfl | ⟨_, _, _, _, _, rfl⟩ | ⟨_, _, _, rfl⟩ <;> exact {}
  | reserveNext h =>
    rcases reserveNext_spec h with ⟨_, rfl⟩ | ⟨_, _, _, _, rfl⟩ <;> exact {}
  | release h => rcases release_spec h with ⟨_, rfl⟩ | ⟨_, _, rfl⟩ <;> exact {}
  | releaseAttempt h => rcases releaseAttempt_spec h with rfl | ⟨_, _, rfl⟩ <;> exact {}
  | commitRetained h =>
    obtain ⟨_, _, _, _, ⟨_, _, rfl⟩ | ⟨_, _, _, _, rfl⟩⟩ := commitRetained_spec h <;> exact {}
  | fenceLostAttempt h =>
    obtain ⟨_, _, _, _, _, ⟨_, hs₁, rfl⟩ | ⟨_, _, _, _, _, _, _, _, _, rfl⟩⟩ :=
      fenceLostAttempt_spec h
    · obtain ⟨_, _, _, _, _, rfl⟩ := fenceAttempt_eq_some hs₁
      exact {}
    · exact {}
  | finalizeCleanup h =>
    obtain ⟨_, _, _, _, _, _, _, rfl⟩ | ⟨_, _, _, _, _, ⟨_, rfl⟩ | ⟨_, _, _, rfl⟩⟩ :=
      finalizeCleanup_spec h <;> exact {}
  | begin h => obtain ⟨_, rfl⟩ | ⟨_, _, _, _, rfl⟩ := begin_spec h <;> exact {}
  | transitionCleanup h => obtain ⟨_, _, _, _, rfl⟩ := transitionCleanup_spec h; exact {}
  | fenceForCleanup h => obtain ⟨_, _, _, _, _, _, _, _, _, rfl⟩ := fenceForCleanup_spec h; exact {}
  | resolve h => obtain ⟨_, _, _, rfl⟩ := resolve_spec h; exact {}

end Orchestrator
