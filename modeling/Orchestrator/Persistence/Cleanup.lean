import Orchestrator.Persistence.Reservations

/-!
# Cleanup authorities

`PgCleanupAuthorityStore` (`cleanup.rs`): one row per execution says which attempt may still own
physical resources and how far their cleanup has come. Nothing ever deletes such a row.
-/

namespace Orchestrator

open Txn Relational

namespace Store

/-- `CleanupAuthorityStore::begin`: insert `ACTIVE:RESERVED`, or touch the row of the same attempt
and worker; a row of any other attempt is a conflict. -/
def begin (now : Timestamp) (executionId : ExecutionId) (attemptId : AttemptId)
    (workerId : WorkerId) : Transaction Unit := fun s =>
  match s.authorities.find? executionId with
  | none =>
    .ok ((), { s with
      authorities := s.authorities.put
        { executionId, attemptId, workerId, phase := .active .reserved, updatedAt := now } })
  | some c =>
    if c.attemptId = attemptId ∧ c.workerId = workerId then
      .ok ((), { s with authorities := s.authorities.put { c with updatedAt := now } })
    else
      .error (.conflict s!"cleanup authority for {executionId} belongs to another attempt")

/-- `CleanupAuthorityStore::transition`: `expected` to `next`, or `next` again. -/
def transitionCleanup (now : Timestamp) (executionId : ExecutionId)
    (expected next : CleanupDisposition) (handles : CleanupHandles) : Transaction Unit := fun s => do
  ensure (expected = next ∨ expected.canTransitionTo next)
    (.conflict s!"illegal cleanup transition {expected} -> {next}")
  let c ← require (s.authorities.find? executionId) (.db "RowNotFound")
  let actual := c.phase
  ensure (actual = expected ∨ actual = next)
    (.conflict s!"cleanup authority is {actual}, expected {expected}")
  pure ((), { s with
    authorities := s.authorities.put { c with phase := next, handles := handles, updatedAt := now } })

/-- `e.state IN ('REVIEW_READY', 'COMPLETED', 'FAILED', 'CANCELLED')`. -/
def workEnded : ExecutionState → Bool
  | .reviewReady | .completed | .failed | .cancelled => true
  | _ => false

def fenceForCleanup (now : Timestamp) (executionId : ExecutionId) (handles : CleanupHandles) :
    Transaction Unit := fun s => do
  let c ← require (s.authorities.find? executionId) (.db "RowNotFound")
  let unfenced := StoreError.conflict
    s!"cleanup authority {executionId} is not fenced or terminal"
  let row ← require (s.executions.find? executionId) unfenced
  let attempt ← require (s.attemptOf executionId c.attemptId) unfenced
  ensure (attempt.finishedAt ≠ none ∨ workEnded row.state ∨ s.cancellationPending executionId)
    unfenced
  ensure (!c.phase.cleaning) unfenced
  pure ((), { s with
    authorities := s.authorities.put
      { c with phase := .cleanupPending, handles := handles, updatedAt := now } })

def resolve (now : Timestamp) (executionId : ExecutionId) : Transaction Unit := fun s => do
  let c ← require (s.authorities.find? executionId) (.db "RowNotFound")
  ensure (c.phase = .reservationReleased ∨ c.phase = .resolved)
    (.conflict s!"cleanup authority {executionId} is not reservation-released")
  pure ((), s.setPhase now c .resolved)

/-- `CleanupAuthorityStore::get`. -/
def getAuthority (s : Store) (executionId : ExecutionId) : Except StoreError CleanupAuthority :=
  require (s.authorities.find? executionId) (.notFound executionId.value)

/-- `ORDER BY updated_at, execution_id`. -/
def authorityBefore (a b : CleanupAuthority) : Prop :=
  a.updatedAt < b.updatedAt ∨ (a.updatedAt = b.updatedAt ∧ a.executionId.value ≤ b.executionId.value)

instance : DecidableRel authorityBefore := fun _ _ => inferInstanceAs (Decidable (_ ∨ _))

/-- `CleanupAuthorityStore::list_for_worker`: the unresolved authorities of `w`. -/
def listAuthorities (s : Store) (w : WorkerId) : List CleanupAuthority :=
  (s.authorities.rows.filter fun c => c.workerId = w && c.phase ≠ .resolved).insertionSort
    authorityBefore

end Store
end Orchestrator
