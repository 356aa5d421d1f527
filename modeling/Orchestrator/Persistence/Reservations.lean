import Orchestrator.Persistence.Schema

/-!
# Reservations

`PgReservationStore` (`reservations.rs`): the transactions that grant a worker capacity and take it
back. `reserveNext` receives the attempt identifier it would draw (`attempt-<uuid>`) and the set of
rows other transactions hold locked, which `SKIP LOCKED` skips; both are arbitrary here.

Every function is followed by its inversion lemma: the guards of a commit and the database it
leaves, with the statements of one transaction gathered in one named update (`Store.granted`,
`Store.pendCleanup`, `Store.finalized`).
-/

namespace Orchestrator

open Txn Relational

/-- What `reserve_next` hands to the worker. -/
structure Reservation where
  execution : Execution
  workerId : WorkerId
  attemptId : AttemptId
  cpu : Nat
  memoryMib : Nat
deriving DecidableEq, Repr

inductive LostWorkerRecovery where
  | cleanupPending (id : ExecutionId)
  | requeued (id : ExecutionId)
  | reviewReady (id : ExecutionId)
  | failed (id : ExecutionId)
deriving DecidableEq, Repr

/-- The result every lost attempt is closed with. -/
def workerLostResult (id : ExecutionId) : ExecutionResult :=
  { executionId := id, state := .failed, failure := some .workerLost }

namespace Store

/-! ## Granting -/

/-- The `COUNT`/`SUM` query over the reservations of `w`. -/
def usage (s : Store) (w : WorkerId) : ReservedResources where
  slots := s.reservations.count fun r => r.workerId = w
  cpu := s.reservations.total (fun r => r.workerId = w) fun r => r.cpu
  memoryMib := s.reservations.total (fun r => r.workerId = w) fun r => r.memoryMib
  diskGib := s.reservations.total (fun r => r.workerId = w) fun r => r.diskGib

/-- `ORDER BY created_at, id`. -/
def queuedBefore (a b : ExecutionRow) : Prop :=
  a.createdAt < b.createdAt ∨ (a.createdAt = b.createdAt ∧ a.id.value ≤ b.id.value)

instance : DecidableRel queuedBefore := fun _ _ => inferInstanceAs (Decidable (_ ∨ _))

/-- Claimable: queued, not being cancelled, and without unresolved cleanup. -/
def claimable (s : Store) (r : ExecutionRow) : Bool :=
  r.state = .queued && !s.cancellationPending r.id &&
    !(s.authorities.find? r.id).any fun c => c.phase ≠ .resolved

/-- The rows `FOR UPDATE SKIP LOCKED` returns, oldest first. -/
def queue (s : Store) (locked : List ExecutionId) : List ExecutionRow :=
  (s.executions.rows.filter fun r => s.claimable r && !locked.contains r.id).insertionSort
    queuedBefore

def claimed (now : Timestamp) (row : ExecutionRow) (w : WorkerId) (a : AttemptId) : ExecutionRow :=
  { row with
    state := .workerAssigned, workerId := some w, attemptId := some a, updatedAt := now,
    labels := { row.labels with workerId := w }, version := row.version + 1 }

/-- The four statements of a grant. -/
def granted (s : Store) (now : Timestamp) (row : ExecutionRow) (w : WorkerId) (a : AttemptId) :
    Store :=
  { s with
    reservations := s.reservations.put
      { executionId := row.id, workerId := w, attemptId := a, cpu := row.manifest.runtime.cpu,
        memoryMib := row.manifest.runtime.memoryMib, diskGib := row.manifest.runtime.diskGib,
        createdAt := now }
    executions := s.executions.put (claimed now row w a)
    attempts := s.attempts.put
      { attemptId := a, executionId := row.id, workerId := w, state := .workerAssigned }
    workers := s.workers.update (fun r => r.id = w)
      (fun r => { r with runningExecutions := r.runningExecutions + 1 }) fun _ => rfl }

/-- The constraints the inserts of a grant must meet: the integer columns, `reservations`' checks
and keys, the attempt's key, and one unfinished attempt per execution. -/
def grantable (s : Store) (row : ExecutionRow) (a : AttemptId) : Except StoreError Unit := do
  let runtime := row.manifest.runtime
  ensure (runtime.cpu < 2 ^ 31) (.conflict "execution cpu exceeds PostgreSQL INTEGER")
  ensure (runtime.memoryMib < 2 ^ 63) (.conflict "execution memory exceeds PostgreSQL BIGINT")
  ensure (runtime.diskGib < 2 ^ 63) (.conflict "execution disk exceeds PostgreSQL BIGINT")
  ensure (0 < runtime.cpu) (.db "reservations_cpu_check")
  ensure (0 < runtime.memoryMib) (.db "reservations_memory_mib_check")
  ensure (s.reservations.find? row.id = none) (.db "reservations_pkey")
  ensure (∀ r ∈ s.reservations.rows, r.attemptId ≠ a) (.db "reservations_attempt_id_key")
  ensure (row.state.canTransitionTo .workerAssigned) (.illegalTransition .queued .workerAssigned)
  ensure (s.attempts.find? a = none) (.db "execution_attempts_pkey")
  ensure (∀ r ∈ s.attempts.rows, r.executionId = row.id → r.finishedAt ≠ none)
    (.db "one_active_attempt_per_execution")

/-- The usage query's conversions. -/
def usageInRange (u : ReservedResources) : Except StoreError Unit := do
  ensure (u.slots < 2 ^ 32) (.conflict "invalid reservation count")
  ensure (u.cpu < 2 ^ 32) (.conflict "invalid reserved cpu")
  ensure (u.memoryMib < 2 ^ 63) (.db "bigint out of range")
  ensure (u.diskGib < 2 ^ 63) (.db "bigint out of range")

def reserveNext (now : Timestamp) (workerId : WorkerId) (attemptId : AttemptId)
    (locked : List ExecutionId) : Transaction (Option Reservation) := fun s => do
  let worker ← require (s.workers.find? workerId) (.notFound workerId.value)
  let reserved := s.usage workerId
  usageInRange reserved
  if worker.state ≠ .ready ∨ !worker.proofIsComplete ∨
      worker.capabilities.maxConcurrentExecutions ≤ reserved.slots then
    pure (none, s)
  else
    match (s.queue locked).find? fun r =>
        workerFitsWithReservations worker r.manifest.runtime reserved with
    | none => pure (none, s)
    | some row => do
      s.grantable row attemptId
      let row' := claimed now row workerId attemptId
      pure (some
        { execution := row'.toExecution, workerId := workerId, attemptId := attemptId,
          cpu := row.manifest.runtime.cpu, memoryMib := row.manifest.runtime.memoryMib },
        s.granted now row workerId attemptId)

/-! ## Giving back -/

def release (executionId : ExecutionId) : Transaction Unit := fun s =>
  match s.reservations.find? executionId with
  | some r => .ok ((), s.dropReservation executionId r.workerId)
  | none => .ok ((), s)

def releaseAttempt (executionId : ExecutionId) (attemptId : AttemptId) : Transaction Bool := fun s =>
  match s.reservationOf executionId attemptId with
  | some r => .ok (true, s.dropReservation executionId r.workerId)
  | none => .ok (false, s)

/-- `UPDATE cleanup_authorities SET phase = …` for the row of `id`. -/
def setPhase (s : Store) (now : Timestamp) (c : CleanupAuthority) (phase : CleanupDisposition) :
    Store :=
  { s with authorities := s.authorities.put { c with phase := phase, updatedAt := now } }

def commitRetainedAndReleaseCapacity (now : Timestamp) (executionId : ExecutionId)
    (attemptId : AttemptId) : Transaction Unit := fun s => do
  let execution ← require (s.executions.find? executionId) (.notFound executionId.value)
  ensure (!s.cancellationPending executionId)
    (.conflict s!"execution {executionId} has a pending cancellation request")
  ensure (execution.state = .reviewReady ∧ execution.manifest.persistence = .resumable ∧
      execution.attemptId = some attemptId)
    (.conflict s!"execution {executionId} is not resumable ReviewReady authority for {attemptId}")
  let authority ← require (s.authorityOf executionId attemptId) (.notFound executionId.value)
  let phase := authority.phase
  ensure (phase = .retainRequested ∨ phase = .retained)
    (.conflict s!"cleanup authority is {phase}, expected RETAIN_REQUESTED or RETAINED")
  let attempt ← require (s.attemptOf executionId attemptId)
    (.conflict s!"attempt {attemptId} authority is absent")
  ensure (attempt.workerId = authority.workerId)
    (.conflict s!"attempt {attemptId} authority is absent")
  let _ ← require (s.workers.find? authority.workerId) (.notFound authority.workerId.value)
  match s.reservationOf executionId attemptId with
  | none => do
    ensure (phase ≠ .retainRequested)
      (.conflict "retention request lost its reservation before atomic commit")
    pure ((), s.setPhase now authority .retained)
  | some r => do
    ensure (r.workerId = authority.workerId)
      (.conflict "retention reservation belongs to another worker")
    pure ((), (s.dropReservation executionId authority.workerId).setPhase now authority .retained)

/-- `ORDER BY r.created_at, r.execution_id`. -/
def reservedBefore (a b : ReservationRow) : Prop :=
  a.createdAt < b.createdAt ∨ (a.createdAt = b.createdAt ∧ a.executionId.value ≤ b.executionId.value)

instance : DecidableRel reservedBefore := fun _ _ => inferInstanceAs (Decidable (_ ∨ _))

/-- The reservations of `w` joined with their executions, in the order every query lists them. -/
def reservationsOf (s : Store) (w : WorkerId) : List ReservationRow :=
  (s.reservations.rows.filter fun r =>
    r.workerId = w && (s.executions.find? r.executionId).isSome).insertionSort reservedBefore

/-- `PgReservationStore::list_for_worker`. -/
def listReservations (s : Store) (w : WorkerId) : List Reservation :=
  (s.reservationsOf w).filterMap fun r => (s.executions.find? r.executionId).map fun row =>
    { execution := row.toExecution, workerId := r.workerId, attemptId := r.attemptId,
      cpu := r.cpu, memoryMib := r.memoryMib }

/-! ## Fencing -/

def lostAttempt (now : Timestamp) (t : AttemptRow) : AttemptRow :=
  { t with
    state := .failed, result := some (workerLostResult t.executionId), finishedAt := some now }

/-- Close the unfinished attempt `(e, a, w)` as lost; `none` when no row was updated. -/
def fenceAttempt (s : Store) (now : Timestamp) (e : ExecutionId) (a : AttemptId) (w : WorkerId) :
    Option Store :=
  match s.attemptOf e a with
  | none => none
  | some r =>
    if r.workerId = w ∧ r.finishedAt = none then
      some { s with attempts := s.attempts.put (lostAttempt now r) }
    else none

/-- `INSERT INTO cleanup_authorities … 'CLEANUP_PENDING' ON CONFLICT (execution_id) DO UPDATE …
WHERE` the row is of the same attempt and worker and cleanup has not begun; otherwise nothing
happens, and nothing is reported. -/
def pendCleanup (s : Store) (now : Timestamp) (e : ExecutionId) (a : AttemptId) (w : WorkerId) :
    Store :=
  { s with
    authorities := match s.authorities.find? e with
      | none => s.authorities.put
        { executionId := e, attemptId := a, workerId := w, phase := .cleanupPending,
          updatedAt := now }
      | some c =>
        if c.attemptId = a ∧ c.workerId = w ∧ !c.phase.cleaning then
          s.authorities.put { c with phase := .cleanupPending, updatedAt := now }
        else s.authorities }

def recoverOne (now : Timestamp) (w : WorkerId) (acc : List LostWorkerRecovery × Store)
    (r : ReservationRow) : List LostWorkerRecovery × Store :=
  match acc.2.fenceAttempt now r.executionId r.attemptId w with
  -- a prior recovery fenced the attempt; its reservation is left for exact resource recovery
  | none => acc
  | some s =>
    (acc.1 ++ [.cleanupPending r.executionId], s.pendCleanup now r.executionId r.attemptId w)

def recoverUnreachable (now : Timestamp) (workerId : WorkerId) :
    Transaction (List LostWorkerRecovery) := fun s => do
  let worker ← require (s.workers.find? workerId) (.notFound workerId.value)
  let state := worker.state.text
  ensure (worker.state = .unreachable) (.conflict s!"worker {workerId} is {state}, not UNREACHABLE")
  pure ((s.reservationsOf workerId).foldl (recoverOne now workerId) ([], s))

def fenceLostAttempt (now : Timestamp) (executionId : ExecutionId) (attemptId : AttemptId) :
    Transaction LostWorkerRecovery := fun s => do
  let changed := StoreError.conflict s!"startup authority changed for {executionId}/{attemptId}"
  let execution ← require (s.executions.find? executionId) changed
  ensure (execution.attemptId = some attemptId) changed
  let _ ← require (s.reservationOf executionId attemptId) changed
  let workerId ← require execution.workerId
    (.conflict "startup-fenced execution lacks worker authority")
  match s.fenceAttempt now executionId attemptId workerId with
  | some s' =>
    pure (.cleanupPending executionId, s'.pendCleanup now executionId attemptId workerId)
  | none => do
    let unfenced := StoreError.conflict
      s!"attempt {attemptId} was already fenced without exact cleanup authority"
    let authority ← require (s.authorityOf executionId attemptId) unfenced
    let attempt ← require (s.attempts.find? attemptId) unfenced
    ensure (authority.workerId = workerId ∧ attempt.finishedAt ≠ none ∧
      (authority.phase = .cleanupPending ∨ authority.phase.cleaning)) unfenced
    pure (.cleanupPending executionId, s)

/-! ## Finalizing -/

def cleanupOutcome (execution : Execution) : LostWorkerRecovery :=
  if execution.state = .reviewReady then .reviewReady execution.id
  else if !execution.state.isTerminal ∧ execution.manifest.persistence = .resumable then
    .requeued execution.id
  else .failed execution.id

/-- `!terminal && !cancellation_pending`. -/
def lost (s : Store) (row : ExecutionRow) : Bool :=
  !row.state.isTerminal && !s.cancellationPending row.id

def requeues (s : Store) (row : ExecutionRow) : Bool :=
  s.lost row && row.state ≠ .reviewReady && row.manifest.persistence = .resumable

/-- The state `finalize_cleanup` leaves the execution in. -/
def finalState (s : Store) (row : ExecutionRow) : ExecutionState :=
  if row.state = .reviewReady then .reviewReady
  else if s.requeues row then .queued
  else if s.lost row then .failed
  else row.state

def finalResult (s : Store) (row : ExecutionRow) : Option ExecutionResult :=
  if row.state = .reviewReady then row.result
  else if s.requeues row then none
  else if s.lost row then some (workerLostResult row.id)
  else row.result

/-- The execution row without its worker, attempt, session and worktree. -/
def detached (now : Timestamp) (row : ExecutionRow) (state : ExecutionState)
    (result : Option ExecutionResult) : ExecutionRow :=
  { row with
    state := state, workerId := none, attemptId := none, sessionId := none, worktreePath := none,
    result := result, updatedAt := now, version := row.version + 1 }

/-- The event published when finalization changes the state. -/
def finalEventKind (row : ExecutionRow) : ExecutionState → Option ExecutionEventKind
  | .queued => some (.executionRequeued .workerLost)
  | .reviewReady => some .reviewReady
  | .failed => some (.executionFailed ((row.result.bind (·.failure)).getD .workerLost))
  | .cancelled => some .executionCancelled
  | .completed => some .executionCompleted
  | _ => none

/-- The attempt row after finalization; an earlier end of the attempt stands. -/
def finishedAttempt (s : Store) (now : Timestamp) (row : ExecutionRow) (attempt : AttemptRow) :
    AttemptRow :=
  let requeued := s.requeues row
  { attempt with
    state := if requeued then .failed else s.finalState row
    result := if requeued then some (workerLostResult row.id) else attempt.result
    finishedAt := some (attempt.finishedAt.getD now) }

/-- The row updates of `finalize_cleanup`, before the event: detach the execution if `a` is still
its attempt, finish the attempt, give the reservation back, move the authority on. -/
def finalized (s : Store) (now : Timestamp) (row : ExecutionRow) (authority : CleanupAuthority)
    (attempt : AttemptRow) : Store :=
  let a := attempt.attemptId
  let next := s.finalState row
  let released := (s.reservationOf row.id a).isSome
  { s with
    executions := if row.attemptId = some a then
        s.executions.put (detached now row next (s.finalResult row)) else s.executions
    attempts := s.attempts.put (s.finishedAttempt now row attempt)
    reservations := if released then s.reservations.erase row.id else s.reservations
    workers := if released then (s.freeSlot authority.workerId).workers else s.workers
    authorities := s.authorities.put
      { authority with phase := .reservationReleased, updatedAt := now } }

/-- A reservation still held is the authority's own, and its worker's row is there to lock. -/
def chargeable (s : Store) (authority : CleanupAuthority) :
    Option ReservationRow → Except StoreError Unit
  | none => .ok ()
  | some r => do
    ensure (r.workerId = authority.workerId)
      (.conflict "cleanup reservation belongs to another worker")
    let _ ← require (s.workers.find? r.workerId) (.db "RowNotFound")
    pure ()

def finalizeCleanup (now : Timestamp) (executionId : ExecutionId) (attemptId : AttemptId) :
    Transaction LostWorkerRecovery := fun s => do
  let row ← require (s.executions.find? executionId) (.notFound executionId.value)
  let unready := StoreError.conflict
    s!"lost cleanup is not ready to finalize for {executionId}/{attemptId}"
  let authority ← require (s.authorityOf executionId attemptId) unready
  ensure (authority.phase = .storageReleased ∨ authority.phase = .reservationReleased) unready
  let outcome := cleanupOutcome row.toExecution
  let attempt ← require (s.attemptOf executionId attemptId)
    (.conflict s!"attempt {attemptId} authority is absent")
  ensure (attempt.workerId = authority.workerId)
    (.conflict "cleanup authority and attempt worker differ")
  if authority.phase = .reservationReleased then
    pure (outcome, s)
  else
    let reservation := s.reservationOf executionId attemptId
    ensure (reservation ≠ none ∨ attempt.finishedAt ≠ none ∨ row.state = .reviewReady ∨
        row.state.isTerminal)
      (.conflict "cleanup has neither an exact reservation nor fenced attempt evidence")
    s.chargeable authority reservation
    let s' := s.finalized now row authority attempt
    let next := s.finalState row
    if next = row.state then
      pure (outcome, s')
    else
      let kind ← require (finalEventKind row next)
        (.conflict s!"cleanup finalization cannot publish state {next}")
      pure (outcome, (s'.append
        { executionId := executionId, attemptId := some attemptId, sequence := 0, at_ := now,
          state := next, kind := kind }).2)

end Store
end Orchestrator
