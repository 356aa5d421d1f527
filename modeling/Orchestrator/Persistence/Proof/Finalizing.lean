import Orchestrator.Persistence.Proof.Cancellation
import Orchestrator.Persistence.Proof.Phases
import Orchestrator.Persistence.Proof.States

/-!
# What a finalization reports

`finalize_cleanup` computes the state it leaves and the recovery it returns from the same row, but
only the former looks at a pending cancellation; a repeated call computes the recovery again, from the
row as it is then (`finalizeCleanup_replay`).
-/

namespace Orchestrator

open Relational Txn

namespace Store

variable {s s' : Store} {now : Timestamp} {e : ExecutionId} {a : AttemptId} {r : LostWorkerRecovery}

/-- The reported recovery names the state the execution is in. -/
structure Agrees (s : Store) (e : ExecutionId) (r : LostWorkerRecovery) : Prop where
  requeued : r = .requeued e ↔ s.stateOf e = some .queued
  reviewReady : r = .reviewReady e ↔ s.stateOf e = some .reviewReady
  failed : r = .failed e ↔ s.stateOf e = some .failed

def IsFinal (s : Store) (e : ExecutionId) (a : AttemptId) : Prop :=
  ∃ c t, s.authorityOf e a = some c ∧ c.phase = .reservationReleased ∧ s.attemptOf e a = some t ∧
    t.workerId = c.workerId

theorem isFinal_of_ok (h : finalizeCleanup now e a s = .ok (r, s')) : s'.IsFinal e a := by
  rcases finalizeCleanup_spec h with ⟨row, c, hrow, hc, hca, hph, _, rfl⟩ | ⟨row, c, t, hg, _, hs⟩
  · simp only [finalizeCleanup, bind_eq_ok, require_eq_ok, ensure_eq_ok] at h
    obtain ⟨_, _, d, hd, _, _, t, ht, _, htw, _⟩ := h
    obtain rfl := Option.mem_unique (authorityOf_eq_some.1 hd).1 hc
    exact ⟨d, t, hd, hph, ht, htw⟩
  · obtain rfl : t.attemptId = a := attempt_id hg.attempt
    obtain rfl : c.executionId = e := authority_id hg.authority
    refine ⟨{ c with phase := .reservationReleased, updatedAt := now }, s.finishedAttempt now row t,
      authorityOf_eq_some.2 ⟨?_, hg.authorityAttempt⟩, rfl,
      attemptOf_eq_some.2 ⟨?_, hg.attemptExecution⟩, hg.attemptWorker⟩ <;>
    rcases hs with ⟨_, rfl⟩ | ⟨_, _, _, rfl⟩ <;> simp [append, finalized, finishedAttempt]

/-- A repeated call recomputes the outcome from the row it finds. -/
theorem finalizeCleanup_replay (h : s.IsFinal e a) {row : ExecutionRow}
    (hrow : s.executions.find? e = some row) :
    finalizeCleanup now e a s = .ok (cleanupOutcome row.toExecution, s) := by
  obtain ⟨c, t, hc, hph, ht, hw⟩ := h
  simp [finalizeCleanup, bind_eq_ok, require_eq_ok, ensure_eq_ok, hrow, hc, hph, ht, hw]

theorem finalizeCleanup_row (h : finalizeCleanup now e a s = .ok (r, s')) {row : ExecutionRow}
    {c : CleanupAuthority} (hrow : s.executions.find? e = some row)
    (hc : s.authorities.find? e = some c) :
    r = cleanupOutcome row.toExecution ∧ s'.executions.find? e =
      some (if c.phase = .storageReleased ∧ row.attemptId = some a then
        detached now row (s.finalState row) (s.finalResult row) else row) := by
  rcases finalizeCleanup_spec h with ⟨_, d, hrow', hd, _, hph, rfl, rfl⟩ | ⟨_, d, t, hg, rfl, hs⟩
  · obtain rfl := Option.mem_unique hrow hrow'
    obtain rfl := Option.mem_unique hc hd
    rw [if_neg (by simp [hph])]
    exact ⟨rfl, hrow⟩
  · obtain rfl := Option.mem_unique hrow hg.found
    obtain rfl := Option.mem_unique hc hg.authority
    obtain rfl : t.attemptId = a := attempt_id hg.attempt
    refine ⟨rfl, ?_⟩
    have hput : s'.executions = (s.finalized now row c t).executions := by
      rcases hs with ⟨_, rfl⟩ | ⟨_, _, _, rfl⟩ <;> rfl
    have hid : row.id = e := execution_id hrow
    simp only [hput, finalized, hg.phase, true_and]
    split
    · simp [detached, hid]
    · exact hrow

/-- In a finalized state, a report holds through repeated calls and a cancellation in between iff it
is about an execution that is not waiting to be granted again. -/
theorem report_stands_iff (hfinal : s.IsFinal e a) {row : ExecutionRow}
    (hrow : s.executions.find? e = some row)
    (hqueued : row.state = .queued → row.workerId = none ∧ row.attemptId = none) :
    (s.Agrees e r ∧ (∀ t, finalizeCleanup t e a s = .ok (r, s)) ∧
      ∀ t t' x s', requestCancellation t e s = .ok (x, s') →
        finalizeCleanup t' e a s' = .ok (r, s')) ↔
    r = .reviewReady e ∧ row.state = .reviewReady ∨ r = .failed e ∧ row.state = .failed := by
  have hid : row.id = e := execution_id hrow
  have hstate : ∀ state, s.stateOf e = some state ↔ row.state = state := by
    simp [stateOf, hrow]
  have hcancel : ∀ {t x s'}, requestCancellation t e s = .ok (x, s') → s'.IsFinal e a := by
    intro t x s' h
    have hframe := (Committed.requestCancellation h).frame
    unfold IsFinal authorityOf attemptOf
    rw [hframe.authorities (by simp [StoreCall.writes]), hframe.attempts (by simp [StoreCall.writes])]
    exact hfinal
  constructor
  · rintro ⟨hagrees, hagain, hbetween⟩
    have hr : cleanupOutcome row.toExecution = r := by
      have := (finalizeCleanup_replay hfinal hrow).symm.trans (hagain 0)
      simpa using this
    unfold cleanupOutcome at hr
    rw [hid] at hr
    split at hr
    · exact .inl ⟨hr.symm, ‹_›⟩
    split at hr
    · -- it is queued, so a cancellation takes effect at once
      have hq : row.state = .queued := (hstate _).1 (hagrees.requeued.1 hr.symm)
      obtain ⟨x, s', h⟩ : ∃ x s', requestCancellation 0 e s = .ok (x, s') := by
        simp [requestCancellation, require, ensure, hrow, hq, hqueued hq, ExecutionState.isTerminal,
          bind, Except.bind, pure, Except.pure]
      have hgone : s'.executions.find? e = some (cancelledRow 0 row) := by
        obtain ⟨_, hrow', ⟨hcancelled, _⟩ | ⟨_, ⟨_, _, _, rfl⟩ | ⟨hbusy, _⟩⟩⟩ :=
          requestCancellation_spec h <;> obtain rfl := Option.mem_unique hrow hrow'
        · cases hq.symm.trans hcancelled
        · exact (Table.find?_put ..).trans (if_pos hid)
        · exact absurd ⟨hq, hqueued hq⟩ hbusy
      have hlast := (finalizeCleanup_replay (hcancel h) hgone).symm.trans (hbetween 0 0 x s' h)
      simp [cleanupOutcome, cancelledRow, moved, ExecutionState.isTerminal, ← hr] at hlast
    · exact .inr ⟨hr.symm, (hstate _).1 (hagrees.failed.1 hr.symm)⟩
  · intro hr
    have hstands : cleanupOutcome row.toExecution = r := by
      rcases hr with ⟨rfl, h⟩ | ⟨rfl, h⟩ <;> simp [cleanupOutcome, hid, h, ExecutionState.isTerminal]
    refine ⟨?_, fun t => hstands ▸ finalizeCleanup_replay hfinal hrow, ?_⟩
    · rcases hr with ⟨rfl, h⟩ | ⟨rfl, h⟩ <;> constructor <;> simp [hstate, h]
    · intro t t' x s' h
      -- a failed execution is not cancelled, and one ready for review keeps its row
      have hkept : s'.executions.find? e = some row := by
        obtain ⟨_, hrow', ⟨hst, _⟩ | ⟨hst, ⟨hq, _, _, _⟩ | ⟨_, rfl⟩⟩⟩ :=
          requestCancellation_spec h <;> obtain rfl := Option.mem_unique hrow hrow'
        · rcases hr with ⟨_, h⟩ | ⟨_, h⟩ <;> cases hst.symm.trans h
        · rcases hr with ⟨_, h⟩ | ⟨_, h⟩ <;> cases hq.symm.trans h
        · exact hrow
      exact hstands ▸ finalizeCleanup_replay (hcancel h) hkept

end Store

namespace Sample

open Store

def cancelling : Store := after initial (emptied ++ [⟨_, .requestCancellation ⟨"e"⟩, 8⟩])

def failing : Store := after initial (emptied ++ [⟨_, .transition ⟨"e"⟩ .failed, 8⟩])

end Sample

end Orchestrator
